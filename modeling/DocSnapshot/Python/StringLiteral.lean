import DocSnapshot.Text.Quoted

/-! String literals: the letters in front, the quotes, and the body with its escapes. -/
namespace DocSnapshot.Python

/-- A string literal taken apart. The value has its escapes decoded unless it is raw or bytes. -/
structure StringLiteral where
  raw : Bool
  bytes : Bool
  formatted : Bool
  value : String
  deriving DecidableEq, Repr

namespace StringLiteral

def isQuote (c : Char) : Bool := c = '"' || c = '\''

def isFlag (c : Char) : Bool := "rRbBuUfFtT".toList.contains c

def isOctal (c : Char) : Bool := '0' ≤ c && c ≤ '7'

def isHex (c : Char) : Bool :=
  c.isDigit || ('a' ≤ c && c ≤ 'f') || ('A' ≤ c && c ≤ 'F')

def digitValue (c : Char) : Nat :=
  if c.isDigit then c.toNat - '0'.toNat
  else if 'a' ≤ c && c ≤ 'z' then c.toNat - 'a'.toNat + 10
  else c.toNat - 'A'.toNat + 10

def numberOf (base : Nat) (ds : List Char) : Nat :=
  ds.foldl (fun n c => n * base + digitValue c) 0

def scalar? (n : Nat) : Option Char := if h : n.isValidChar then some (Char.ofNatAux n h) else none

def simpleEscape? (c : Char) : Option (List Char) :=
  match c with
  | '\n' => some []
  | '\\' => some ['\\']
  | '\'' => some ['\'']
  | '"' => some ['"']
  | 'a' => some ['\x07']
  | 'b' => some ['\x08']
  | 'f' => some ['\x0c']
  | 'n' => some ['\n']
  | 'r' => some ['\r']
  | 't' => some ['\t']
  | 'v' => some ['\x0b']
  | _ => none

def hexWidth? (c : Char) : Option Nat :=
  match c with
  | 'x' => some 2
  | 'u' => some 4
  | 'U' => some 8
  | _ => none

def takeUpTo (p : Char → Bool) : Nat → List Char → List Char
  | 0, _ => []
  | _, [] => []
  | n + 1, c :: cs => if p c then c :: takeUpTo p n cs else []

def hexEscape (letter : Char) (width : Nat) (ds : List Char) : List Char :=
  if ds.length = width then ((scalar? (numberOf 16 ds)).map ([·])).getD ('\\' :: letter :: ds)
  else '\\' :: letter :: ds

/-- The body of a literal with its escapes decoded. What is no escape stays as it stands. -/
def decode : List Char → List Char
  | [] => []
  | c :: rest =>
    if c ≠ '\\' then c :: decode rest
    else match rest with
      | [] => ['\\']
      | d :: tail =>
        match simpleEscape? d with
        | some s => s ++ decode tail
        | none =>
          if isOctal d then
            let ds := d :: takeUpTo isOctal 2 tail
            ((scalar? (numberOf 8 ds)).map ([·])).getD ['\\', d] ++
              decode (tail.drop (ds.length - 1))
          else match hexWidth? d with
            | some width =>
              let ds := takeUpTo isHex width tail
              hexEscape d width ds ++ decode (tail.drop ds.length)
            | none => '\\' :: d :: decode tail
termination_by s => s.length
decreasing_by
  all_goals
    simp only [List.length_cons, List.length_drop]
    omega

def openingMark (c : Char) (rest : List Char) : List Char :=
  if rest.take 2 = [c, c] then [c, c, c] else [c]

def split? (s : List Char) : Option (List Char × List Char × List Char) :=
  let flags := s.takeWhile (!isQuote ·)
  match s.dropWhile (!isQuote ·) with
  | [] => none
  | c :: rest =>
    let mark := openingMark c rest
    let quoted := c :: rest
    if flags.all isFlag && 2 * mark.length ≤ quoted.length
        && quoted.drop (quoted.length - mark.length) = mark then
      some (flags, mark, (quoted.drop mark.length).take (quoted.length - 2 * mark.length))
    else none

def parse? (text : String) : Option StringLiteral :=
  (split? text.toList).map fun (flags, _, body) =>
    let has (letters : List Char) : Bool := flags.any letters.contains
    let raw := has ['r', 'R']
    let bytes := has ['b', 'B']
    { raw := raw, bytes := bytes, formatted := has ['f', 'F', 't', 'T']
      value := String.ofList (if raw || bytes then body else decode body) }

end StringLiteral

end DocSnapshot.Python
