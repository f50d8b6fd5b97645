/-! File paths as text, with slashes between their parts. -/
namespace DocSnapshot.Path

inductive Component where
  | root
  | here
  | up
  | name (s : String)
  deriving DecidableEq, Repr

/-- Parts that lead nowhere: those between doubled slashes, and single periods. -/
def isIdle (part : List Char) : Bool := part = [] || part = ['.']

/-- The mark a path begins with, a slash or a leading period, and its parts behind that mark. -/
def cut (path : List Char) : List Char × List (List Char) :=
  match path with
  | '/' :: rest => (['/'], rest.splitOn '/')
  | ['.'] => (['.'], [])
  | '.' :: '/' :: rest => (['.'], [] :: rest.splitOn '/')
  | _ => ([], path.splitOn '/')

def component (part : List Char) : Component :=
  if part = ['.', '.'] then .up else .name (String.ofList part)

/-- The parts of a path. Doubled slashes and periods count only at its start. -/
def components (path : String) : List Component :=
  let (mark, parts) := cut path.toList
  (if mark = ['/'] then [.root] else if mark = ['.'] then [.here] else []) ++
    (parts.filter (!isIdle ·)).map component

def isAbsolute (path : String) : Bool := path.toList.head? = some '/'

def fileName? (path : String) : Option String :=
  match (components path).getLast? with
  | some (.name s) => some s
  | _ => none

/-- A name without what follows its last period, and what follows it. A period in front makes no
extension. -/
def cutName (name : List Char) : Option (List Char × List Char) :=
  let after := (name.reverse.takeWhile (· ≠ '.')).reverse
  let before := name.take (name.length - after.length - 1)
  if name.contains '.' && before ≠ [] then some (before, after) else none

def extension? (path : String) : Option String := do
  let name ← fileName? path
  return String.ofList (← cutName name.toList).2

def dropIdleEnd (parts : List (List Char)) : List (List Char) :=
  (parts.reverse.dropWhile isIdle).reverse

def parent? (path : String) : Option String :=
  let (mark, parts) := cut path.toList
  match dropIdleEnd parts with
  | [] => if mark = ['.'] then some "" else none
  | part :: rest =>
    some (String.ofList (mark ++ List.intercalate ['/'] (dropIdleEnd (part :: rest).dropLast)))

/-- A path below another. An absolute path replaces what it is joined to. -/
def join (base path : String) : String :=
  if isAbsolute path || base.isEmpty then path
  else if base.toList.getLast? = some '/' then base ++ path
  else base ++ "/" ++ path

def withFileName (path name : String) : String :=
  match fileName? path with
  | some _ => join ((parent? path).getD "") name
  | none => join path name

def slashed (path : String) : String :=
  String.ofList (List.intercalate ['/'] ((components path).filterMap fun
    | .name s => some s.toList
    | _ => none))

def segments (path : String) : List String :=
  ((path.toList.splitOn '/').filter (· ≠ [])).map String.ofList

def isSource (path : String) : Bool := extension? path = some "py"

def recordPath (source : String) : String := source ++ ".json"

end DocSnapshot.Path
