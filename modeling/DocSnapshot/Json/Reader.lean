import DocSnapshot.Json.Value

/-! Reading JSON text. A reader takes what its value needs from the input and fails with the first
fault it meets, so the type of a value and the form of the text are checked together. -/
namespace DocSnapshot.Json

structure Mark where
  line : Nat
  column : Nat
  deriving DecidableEq, Repr

structure Fault where
  reason : String
  mark : Mark
  deriving DecidableEq, Repr

def Fault.message (f : Fault) : String :=
  f.reason ++ " at line " ++ toString f.mark.line ++ " column " ++ toString f.mark.column

structure Input where
  rest : List Char
  mark : Mark
  deriving DecidableEq, Repr

namespace Input

def ofString (s : String) : Input := ⟨s.toList, ⟨1, 0⟩⟩

private def past (m : Mark) (c : Char) (n : Nat) : Mark :=
  if c = '\n' then ⟨m.line + 1, 0⟩ else ⟨m.line, m.column + n⟩

def step (m : Mark) (c : Char) : Mark := past m c c.utf8Size

def ahead (i : Input) : Mark :=
  match i.rest with
  | [] => i.mark
  | c :: _ => past i.mark c 1

def stepAll (m : Mark) (cs : List Char) : Mark := cs.foldl step m

end Input

/-- A reader of values. -/
abbrev Reader := StateT Input (Except Fault)

namespace Reader

variable {α β : Type}

def fail (reason : String) : Reader α := fun i => .error ⟨reason, i.mark⟩

def failAhead (reason : String) : Reader α := fun i => .error ⟨reason, i.ahead⟩

def isSpace (c : Char) : Bool := c = ' ' || c = '\n' || c = '\t' || c = '\r'

def skipSpace : Reader Unit := fun i =>
  let blanks := i.rest.takeWhile isSpace
  .ok ((), ⟨i.rest.dropWhile isSpace, Input.stepAll i.mark blanks⟩)

def peek : Reader (Option Char) := fun i => .ok (i.rest.head?, i)

def peekValue : Reader (Option Char) := do
  skipSpace
  peek

def bump : Reader Unit := fun i =>
  match i.rest with
  | [] => .ok ((), i)
  | c :: rest => .ok ((), ⟨rest, Input.step i.mark c⟩)

def failClosing (closing : Char) (reason : String) : Reader α := do
  if (← peekValue) = some closing then bump
  fail reason

def word : List Char → Reader Unit
  | [] => pure ()
  | c :: cs => do
    match ← peek with
    | none => fail "EOF while parsing a value"
    | some d => if d = c then do bump; word cs else failAhead "expected ident"

def hexValue? (c : Char) : Option Nat :=
  if Python.StringLiteral.isHex c then some (Python.StringLiteral.digitValue c) else none

def fourHex? : List Char → Option (Nat × List Char)
  | a :: b :: c :: d :: rest => do
    let a ← hexValue? a
    let b ← hexValue? b
    let c ← hexValue? c
    let d ← hexValue? d
    some (((a * 16 + b) * 16 + c) * 16 + d, rest)
  | _ => none

private theorem length_of_fourHex? {cs rest : List Char} {n : Nat}
    (h : fourHex? cs = some (n, rest)) : rest.length + 4 = cs.length := by
  unfold fourHex? at h
  split at h
  · simp [Option.bind_eq_some_iff] at h
    obtain ⟨_, _, _, _, _, _, _, _, _, rfl⟩ := h
    rfl
  · simp at h

private def afterFourBytes (m : Mark) (cs : List Char) : Option Mark :=
  go m cs 4
where
  /-- The place after `n` more bytes. -/
  go (m : Mark) : List Char → Nat → Option Mark
    | _, 0 => some m
    | [], _ + 1 => none
    | c :: cs, n + 1 =>
      if c.utf8Size ≤ n + 1 then go (Input.step m c) cs (n + 1 - c.utf8Size)
      else some ⟨m.line, m.column + n + 1⟩

private def badHex (m : Mark) (cs : List Char) : Fault :=
  match afterFourBytes m cs with
  | some m => ⟨"invalid escape", m⟩
  | none => ⟨"EOF while parsing a string", Input.stepAll m cs⟩

def columns (m : Mark) (n : Nat) : Mark := ⟨m.line, m.column + n⟩

def shortEscape? (c : Char) : Option Char :=
  match c with
  | '"' => some '"'
  | '\\' => some '\\'
  | '/' => some '/'
  | 'b' => some '\x08'
  | 'f' => some '\x0c'
  | 'n' => some '\n'
  | 'r' => some '\r'
  | 't' => some '\t'
  | _ => none

/-- The character of an escape whose backslash and letter `u` have been taken. Characters beyond
the basic plane are written as two escapes. -/
def unicodeEscape (m : Mark) (cs : List Char) : Except Fault (Char × List Char × Mark) :=
  match fourHex? cs with
  | none => .error (badHex m cs)
  | some (n, after) =>
    if 0xdc00 ≤ n ∧ n ≤ 0xdfff then
      .error ⟨"lone leading surrogate in hex escape", columns m 4⟩
    else if 0xd800 ≤ n ∧ n ≤ 0xdbff then
      match after with
      | '\\' :: 'u' :: low =>
        match fourHex? low with
        | none => .error (badHex (columns m 6) low)
        | some (k, rest) =>
          if 0xdc00 ≤ k ∧ k ≤ 0xdfff then
            .ok (Char.ofNat ((n - 0xd800) * 0x400 + (k - 0xdc00) + 0x10000), rest, columns m 10)
          else .error ⟨"lone leading surrogate in hex escape", columns m 10⟩
      | '\\' :: c :: rest =>
        .error ⟨"unexpected end of hex escape", Input.ahead ⟨c :: rest, columns m 5⟩⟩
      | ['\\'] => .error ⟨"EOF while parsing a string", columns m 5⟩
      | c :: rest => .error ⟨"unexpected end of hex escape", Input.ahead ⟨c :: rest, columns m 4⟩⟩
      | [] => .error ⟨"EOF while parsing a string", columns m 4⟩
    else .ok (Char.ofNat n, after, columns m 4)

private theorem length_of_unicodeEscape {m m' : Mark} {cs rest : List Char} {c : Char}
    (h : unicodeEscape m cs = .ok (c, rest, m')) : rest.length < cs.length := by
  unfold unicodeEscape at h
  split at h
  · simp at h
  · next n after hn =>
    have := length_of_fourHex? hn
    split at h
    · simp at h
    · split at h
      · split at h <;> try simp at h
        next low =>
          split at h <;> try simp at h
          next k rest' hk =>
            have := length_of_fourHex? hk
            simp only [List.length_cons] at *
            split at h <;> try simp at h
            obtain ⟨_, rfl, _⟩ := h
            omega
      · simp at h
        obtain ⟨_, rfl, _⟩ := h
        omega

def stringBody (m : Mark) (cs : List Char) : Except Fault (List Char × Input) :=
  match cs with
  | [] => .error ⟨"EOF while parsing a string", m⟩
  | c :: rest =>
    if c = '"' then .ok ([], ⟨rest, columns m 1⟩)
    else if c = '\\' then
      match rest with
      | [] => .error ⟨"EOF while parsing a string", columns m 1⟩
      | d :: tail =>
        if d = 'u' then
          match h : unicodeEscape (columns m 2) tail with
          | .error f => .error f
          | .ok (u, after, m) =>
            have := length_of_unicodeEscape h
            (stringBody m after).map fun (s, i) => (u :: s, i)
        else match shortEscape? d with
          | some e => (stringBody (columns m 2) tail).map fun (s, i) => (e :: s, i)
          | none => .error ⟨"invalid escape", Input.ahead ⟨d :: tail, columns m 1⟩⟩
    else if c < ' ' then
      .error ⟨"control character (\\u0000-\\u001F) found while parsing a string", Input.step m c⟩
    else (stringBody (Input.step m c) rest).map fun (s, i) => (c :: s, i)
termination_by cs.length
decreasing_by all_goals simp_wf <;> omega

def stringRest : Reader String := fun i =>
  (stringBody i.mark i.rest).map fun (s, i) => (String.ofList s, i)

/-- Skips the rest of a string up to its closing quote. Escapes need only be well formed. -/
def skipStringBody (m : Mark) (cs : List Char) : Except Fault Input :=
  match cs with
  | [] => .error ⟨"EOF while parsing a string", m⟩
  | c :: rest =>
    if c = '"' then .ok ⟨rest, columns m 1⟩
    else if c = '\\' then
      match rest with
      | [] => .error ⟨"EOF while parsing a string", columns m 1⟩
      | d :: tail =>
        if d = 'u' then
          match h : fourHex? tail with
          | none => .error (badHex (columns m 2) tail)
          | some (_, after) =>
            have := length_of_fourHex? h
            skipStringBody (columns m 6) after
        else if (shortEscape? d).isSome then skipStringBody (columns m 2) tail
        else .error ⟨"invalid escape", Input.ahead ⟨d :: tail, columns m 1⟩⟩
    else if c < ' ' then
      .error ⟨"control character (\\u0000-\\u001F) found while parsing a string", m⟩
    else skipStringBody (Input.step m c) rest
termination_by cs.length
decreasing_by all_goals simp_wf <;> omega

def skipStringRest : Reader Unit := fun i =>
  (skipStringBody i.mark i.rest).map fun i => ((), i)

def digits : Reader (List Char) := fun i =>
  let ds := i.rest.takeWhile Char.isDigit
  .ok (ds, ⟨i.rest.dropWhile Char.isDigit, columns i.mark ds.length⟩)

def wholeDigits : Reader (List Char) := do
  match ← peek with
  | none => fail "EOF while parsing a value"
  | some '0' => do
    bump
    if (← peek).any Char.isDigit then failAhead "invalid number" else return ['0']
  | some c => if c.isDigit then digits else failAhead "invalid number"

private def fractionDigits : Reader (List Char) := do
  bump
  match ← digits with
  | [] => do
    match ← peek with
    | none => failAhead "EOF while parsing a value"
    | some _ => failAhead "invalid number"
  | ds => return ds

private def exponentValue : Reader Int := do
  bump
  let sign ← peek
  if sign = some '+' || sign = some '-' then bump
  match ← peek with
  | none => fail "EOF while parsing a value"
  | some c =>
    if c.isDigit then
      let n : Int := Python.StringLiteral.numberOf 10 (← digits)
      return if sign = some '-' then -n else n
    else failAhead "invalid number"

private def scaled (significand : Nat) (e : Int) : Option Decimal.Binary64 :=
  let power (n : Nat) : Float := Float.ofBits (Decimal.Binary64.ofDecimal 1 n).bits
  let f := significand.toUInt64.toFloat
  let of (f : Float) : Option Decimal.Binary64 := if f.isInf then none else some ⟨f.toBits⟩
  if 0 ≤ e then
    if e ≤ 308 then of (f * power e.toNat) else if significand = 0 then of f else none
  else if -308 ≤ e then of (f / power (-e).toNat)
  else of (f / power 308 / power (min 308 ((-e).toNat - 308)))

private def leading (ds : List Char) : Nat × Nat :=
  go 0 ds
where
  /-- The number so far with the digits to come. -/
  go (n : Nat) : List Char → Nat × Nat
    | [] => (n, 0)
    | d :: ds =>
      let next := n * 10 + Python.StringLiteral.digitValue d
      if next < Nat.pow 2 64 then go next ds else (n, ds.length + 1)

private def negated (negative : Bool) (x : Decimal.Binary64) : Decimal.Binary64 :=
  if negative then ⟨x.bits ||| 0x8000000000000000⟩ else x

/-- A number with its sign already taken. Integers that fit 64 bits stay exact. -/
def number (negative : Bool) : Reader Json := do
  let whole ← wholeDigits
  let fraction ← if (← peek) = some '.' then fractionDigits else pure []
  let isReal := !fraction.isEmpty || (← peek) = some 'e' || (← peek) = some 'E'
  let exponent ← if (← peek) = some 'e' || (← peek) = some 'E' then exponentValue else pure 0
  let n := Python.StringLiteral.numberOf 10 whole
  if !isReal && !negative && n < Nat.pow 2 64 then return .int n
  else if !isReal && negative && 0 < n && n ≤ Nat.pow 2 63 then return .int (-n)
  else
    let (significand, dropped) := leading (whole ++ fraction)
    match scaled significand (exponent - fraction.length + dropped) with
    | some x => return .float (negated negative x)
    | none => fail "number out of range"

def describe : Json → String
  | .null => "null"
  | .bool b => "boolean " ++ tick ++ (if b then "true" else "false") ++ tick
  | .int n => "integer " ++ tick ++ String.ofList (renderInt n) ++ tick
  | .float x => "floating point " ++ tick ++ Python.Literal.renderFloat x ++ tick
  | .str s => "string " ++ Text.described s
  | .arr _ => "sequence"
  | .obj _ => "map"
where
  /-- The mark around values and names in messages. -/
  tick : String := String.singleton (Char.ofNat 96)

def ticked (s : String) : String := describe.tick ++ s ++ describe.tick

def shallow : Reader Json := do
  match ← peek with
  | some 'n' => do bump; word ['u', 'l', 'l']; return .null
  | some 't' => do bump; word ['r', 'u', 'e']; return .bool true
  | some 'f' => do bump; word ['a', 'l', 's', 'e']; return .bool false
  | some '-' => do bump; number true
  | some '"' => do bump; return .str (← stringRest)
  | some '[' => return .arr []
  | some '\x7b' => return .obj []
  | some c => if c.isDigit then number false else failAhead "expected value"
  | none => failAhead "expected value"

def mismatch (expected : String) : Reader α := do
  let found ← shallow
  fail ("invalid type: " ++ describe found ++ ", expected " ++ expected)

def startOfValue : Reader Char := do
  match ← peekValue with
  | some c => return c
  | none => failAhead "EOF while parsing a value"

def string (expected : String) : Reader String := do
  if (← startOfValue) = '"' then do bump; stringRest else mismatch expected

def boolean : Reader Bool := do
  match ← startOfValue with
  | 't' => do bump; word ['r', 'u', 'e']; return true
  | 'f' => do bump; word ['a', 'l', 's', 'e']; return false
  | _ => mismatch "a boolean"

def natural (expected : String) : Reader Nat := do
  let c ← startOfValue
  let found ← if c = '-' then do bump; number true
    else if c.isDigit then number false
    else mismatch expected
  match found with
  | .int (.ofNat n) => return n
  | .int n =>
    fail ("invalid value: " ++ describe (.int n) ++ ", expected " ++ expected)
  | other => fail ("invalid type: " ++ describe other ++ ", expected " ++ expected)

def optional (read : Reader α) : Reader (Option α) := do
  if (← peekValue) = some 'n' then do bump; word ['u', 'l', 'l']; return none
  else return some (← read)

def hasItem (first : Bool) : Reader Bool := do
  match ← peekValue with
  | none => failAhead "EOF while parsing a list"
  | some ']' => return false
  | some c =>
    if first then return true
    else if c = ',' then do
      bump
      match ← peekValue with
      | none => failAhead "EOF while parsing a value"
      | some ']' => failAhead "trailing comma"
      | some _ => return true
    else failAhead ("expected " ++ ticked "," ++ " or " ++ ticked "]")

def closeList : Reader Unit := do
  match ← peekValue with
  | some ']' => bump
  | some ',' => do
    bump
    if (← peekValue) = some ']' then failAhead "trailing comma" else failAhead "trailing characters"
  | some _ => failAhead "trailing characters"
  | none => failAhead "EOF while parsing a list"

def hasKey (first : Bool) : Reader Bool := do
  match ← peekValue with
  | none => failAhead "EOF while parsing an object"
  | some '\x7d' => return false
  | some c =>
    if first then
      if c = '"' then return true else failAhead "key must be a string"
    else if c = ',' then do
      bump
      match ← peekValue with
      | none => failAhead "EOF while parsing a value"
      | some '"' => return true
      | some '\x7d' => failAhead "trailing comma"
      | some _ => failAhead "key must be a string"
    else failAhead ("expected " ++ ticked "," ++ " or " ++ ticked "\x7d")

def closeObject : Reader Unit := do
  match ← peekValue with
  | some '\x7d' => bump
  | some ',' => failAhead "trailing comma"
  | some _ => failAhead "trailing characters"
  | none => failAhead "EOF while parsing an object"

def colon : Reader Unit := do
  match ← peekValue with
  | some ':' => bump
  | some _ => failAhead ("expected " ++ ticked ":")
  | none => failAhead "EOF while parsing an object"

/-- How many containers may still be opened. The last one is refused. -/
abbrev Depth := Nat

def fullDepth : Depth := 128

def enter (depth : Depth) : Reader Depth := do
  if depth ≤ 1 then failAhead "recursion limit exceeded"
  else do bump; return depth - 1

def items (read : Reader α) : Nat → Bool → Reader (List α)
  | 0, _ => return []
  | fuel + 1, first => do
    if ← hasItem first then
      let a ← read
      return a :: (← items read fuel false)
    else return []

def remaining : Reader Nat := fun i => .ok (i.rest.length + 1, i)

def list (depth : Depth) (expected : String) (read : Depth → Reader α) : Reader (List α) := do
  if (← startOfValue) = '[' then
    let depth ← enter depth
    let xs ← items (read depth) (← remaining) true
    closeList
    return xs
  else mismatch expected

/-- The members of an open object, up to its brace; `read` is given the key, with the colon still
to come. -/
def members (read : String → β → Reader β) : Nat → Bool → β → Reader β
  | 0, _, acc => return acc
  | fuel + 1, first, acc => do
    if ← hasKey first then
      bump
      let key ← stringRest
      members read fuel false (← read key acc)
    else return acc

def any : Depth → Reader Json
  | 0 => failAhead "recursion limit exceeded"
  | depth + 1 => do
    match ← startOfValue with
    | '[' => do
      let _ ← enter (depth + 1)
      let xs ← items (any depth) (← remaining) true
      closeList
      return .arr xs
    | '\x7b' => do
      let _ ← enter (depth + 1)
      let ms ← members (fun k acc => do
        colon
        let v ← any depth
        return (k, v) :: acc) (← remaining) true []
      closeObject
      return .obj ms.reverse
    | _ => shallow

private inductive Open where
  | list
  | object
  deriving DecidableEq

private def skipNumber : Reader Unit := do
  match ← peek with
  | some '0' => do
    bump
    if (← peek).any Char.isDigit then failAhead "invalid number"
  | some c => if c.isDigit then do let _ ← digits else failAhead "invalid number"
  | none => failAhead "invalid number"
  if (← peek) = some '.' then
    bump
    if (← digits).isEmpty then failAhead "invalid number"
  if (← peek) = some 'e' || (← peek) = some 'E' then
    bump
    if (← peek) = some '+' || (← peek) = some '-' then bump
    if (← digits).isEmpty then failAhead "invalid number"

private def skipStart : Reader (Option Open) := do
  match ← startOfValue with
  | 'n' => do bump; word ['u', 'l', 'l']; return none
  | 't' => do bump; word ['r', 'u', 'e']; return none
  | 'f' => do bump; word ['a', 'l', 's', 'e']; return none
  | '-' => do bump; skipNumber; return none
  | '"' => do bump; skipStringRest; return none
  | '[' => do bump; return some .list
  | '\x7b' => do bump; return some .object
  | c => if c.isDigit then do skipNumber; return none else failAhead "expected value"

private def skipKey : Reader Unit := do
  match ← peekValue with
  | some '"' => bump
  | some _ => failAhead "key must be a string"
  | none => failAhead "EOF while parsing an object"
  skipStringRest
  colon

private def skipClosings : Bool → List Open → Reader (List Open)
  -- The result is the containers still open; `comma` says whether a comma may come next.
  | _, [] => return []
  | comma, o :: outer => do
    match ← peekValue with
    | none =>
      failAhead (if o = .list then "EOF while parsing a list" else "EOF while parsing an object")
    | some c =>
      if c = (if o = .list then ']' else '\x7d') then do
        bump
        skipClosings true outer
      else if comma then
        if c = ',' then do bump; return o :: outer
        else failAhead ("expected " ++ ticked "," ++ " or " ++
          ticked (if o = .list then "]" else "\x7d"))
      else return o :: outer

private def skipLoop : Nat → List Open → Reader Unit
  | 0, _ => return
  | fuel + 1, outer => do
    let opened ← skipStart
    let left ← match opened with
      | some o => skipClosings false (o :: outer)
      | none => skipClosings true outer
    match left with
    | [] => return
    | o :: _ => do
      if o = .object then skipKey
      skipLoop fuel left

def skip : Reader Unit := do skipLoop (← remaining) []

/-- A field of a record: its name, how its value is read and stored, and whether it may be missing
from an object and from a list. -/
structure FieldReader (β : Type) where
  name : String
  read : Depth → Reader (β → β)
  optional : Bool
  defaulted : Bool

/-- A member of a record. An unknown one is skipped, and none may come twice. -/
def fieldMember (fields : List (FieldReader β)) (depth : Depth) (key : String)
    (state : β × List String) : Reader (β × List String) :=
  match fields.find? (·.name = key) with
  | none => do
    colon
    skip
    return state
  | some f =>
    if state.2.contains key then failClosing '\x7d' ("duplicate field " ++ ticked key)
    else do
      colon
      let store ← f.read depth
      return (store state.1, key :: state.2)

def fieldMembers (fields : List (FieldReader β)) (depth : Depth) (init : β) :
    Reader (β × List String) := do
  members (fieldMember fields depth) (← remaining) true (init, [])

def missing? (fields : List (FieldReader β)) (seen : List String) : Option String :=
  (fields.find? fun f => !f.optional && !seen.contains f.name).map (·.name)

private def fieldItems (expected : String) (depth : Depth) (total : Nat) :
    List (FieldReader β) → Nat → β → Reader β
  | [], _, acc => return acc
  | f :: rest, n, acc => do
    if ← hasItem (n = 0) then
      let store ← f.read depth
      fieldItems expected depth total rest (n + 1) (store acc)
    else if f.defaulted then fieldItems expected depth total rest (n + 1) acc
    else failClosing ']' ("invalid length " ++ toString n ++ ", expected " ++ expected ++ " with "
      ++ toString total ++ (if total = 1 then " element" else " elements"))

def record (depth : Depth) (expected : String) (fields : List (FieldReader β)) (init : β) :
    Reader β := do
  match ← startOfValue with
  | '[' => do
    let depth ← enter depth
    let value ← fieldItems expected depth fields.length fields 0 init
    closeList
    return value
  | '\x7b' => do
    let depth ← enter depth
    let (value, seen) ← fieldMembers fields depth init
    closeObject
    match missing? fields seen with
    | some name => fail ("missing field " ++ ticked name)
    | none => return value
  | _ => mismatch expected

def alone (read : Reader α) : Reader α := do
  let a ← read
  match ← peekValue with
  | some _ => failAhead "trailing characters"
  | none => return a

def whole (read : Reader α) (text : String) : Except Fault α :=
  (alone read (Input.ofString text)).map (·.1)

end Reader

end DocSnapshot.Json
