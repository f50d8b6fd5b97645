import DocSnapshot.Ignore.Compile
import DocSnapshot.Path
import DocSnapshot.Text.CharClass

/-! Lists of ignore patterns. -/
namespace DocSnapshot.Ignore

/-- One pattern line. A rule for directories passes over files, and a negated rule takes files back
in. -/
structure Rule where
  line : String
  negated : Bool
  dirsOnly : Bool
  glob : Glob
  deriving Repr

namespace Rule

structure Error where
  line : String
  fault : Fault
  deriving DecidableEq, Repr

def Error.message (e : Error) : String :=
  "error parsing glob '" ++ e.line ++ "': " ++ e.fault.message

/-- The text of a line that counts: comments have none, and blanks at the end do not count unless
the last one is escaped. -/
def content (line : List Char) : List Char :=
  if line.head? = some '#' then []
  else if ['\\', ' '].isSuffixOf line then line
  else Text.trimEnd line

/-- The marks of a line: whether it is negated, whether it is bound to the root, and the pattern. -/
def marks (line : List Char) : Bool × Bool × List Char :=
  match line with
  | '\\' :: '!' :: rest => (false, false, '!' :: rest)
  | '\\' :: '#' :: rest => (false, false, '#' :: rest)
  | '!' :: '/' :: rest => (true, true, rest)
  | '!' :: rest => (true, false, rest)
  | '/' :: rest => (false, true, rest)
  | _ => (false, false, line)

def dirMark (pattern : List Char) : Bool × List Char :=
  if pattern.getLast? = some '/' then
    let pattern := pattern.dropLast
    (true, if pattern.getLast? = some '\\' then pattern.dropLast else pattern)
  else (false, pattern)

/-- The glob for whole paths. A pattern that is one part long and not bound to the root may match
at any depth, and one that ends deep needs something below it. -/
def expand (bound : Bool) (pattern : List Char) : List Char :=
  let deep : List Char := ['*', '*', '/']
  let anywhere :=
    !bound && !pattern.contains '/' && !deep.isPrefixOf pattern && pattern ≠ ['*', '*']
  let glob := if anywhere then deep ++ pattern else pattern
  if ['/', '*', '*'].isSuffixOf glob then glob ++ ['/', '*'] else glob

def ofLine (line : String) : Except Error (Option Rule) :=
  match content line.toList with
  | [] => .ok none
  | text =>
    let (negated, bound, pattern) := marks text
    let (dirsOnly, pattern) := dirMark pattern
    match Glob.compile (expand bound pattern) with
    | .ok glob => .ok (some ⟨String.ofList text, negated, dirsOnly, glob⟩)
    | .error fault => .error ⟨String.ofList text, fault⟩

def matchesPath (r : Rule) (path : String) (isDir : Bool) : Bool :=
  (isDir || !r.dirsOnly) && r.glob.matchesPath path

end Rule

structure Matcher where
  root : String
  rules : List Rule
  deriving Repr

namespace Matcher

def empty : Matcher := ⟨"", []⟩

def dropText (start s : List Char) : List Char :=
  if start.isPrefixOf s then s.drop start.length else s

/-- The matcher of some lines. The first line that cannot be compiled is the error. -/
def ofLines (root : String) (lines : List String) : Except Rule.Error Matcher := do
  let rules ← lines.mapM Rule.ofLine
  return ⟨String.ofList (dropText ['.', '/'] root.toList), rules.filterMap id⟩

/-- A path as the rules see it: without a period and slash in front, and without the root. A bare
file name keeps its text. -/
def relative (m : Matcher) (path : String) : String :=
  let cs := dropText ['.', '/'] path.toList
  let root := m.root.toList
  if Path.components m.root ≠ [.here] && cs.contains '/' && root.isPrefixOf cs then
    String.ofList (dropText ['/'] (cs.drop root.length))
  else String.ofList cs

def verdict? (m : Matcher) (path : String) (isDir : Bool) : Option Bool :=
  (m.rules.reverse.find? (·.matchesPath path isDir)).map (!·.negated)

def ancestors (path : String) : List String :=
  go path (path.length + 1)
where
  /-- At most `n` steps up. -/
  go (path : String) : Nat → List String
    | 0 => []
    | n + 1 =>
      match Path.parent? path with
      | some p => p :: go p n
      | none => []

/-- Whether a file is excluded: of the file itself and the directories above it, the nearest that
some rule matches decides. There is no answer for a path that is absolute below the root. -/
def excludes? (m : Matcher) (path : String) : Option Bool :=
  if m.rules.isEmpty || Path.isAbsolute path then some false
  else
    let path := m.relative path
    if Path.isAbsolute path then none
    else some (((m.verdict? path false).or
      ((ancestors path).findSome? (m.verdict? · true))).getD false)

end Matcher

end DocSnapshot.Ignore
