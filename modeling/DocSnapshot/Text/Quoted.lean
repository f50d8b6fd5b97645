import DocSnapshot.Text.Printable

/-! Text between quotation marks. -/
namespace DocSnapshot.Text

def isControl (c : Char) : Bool := c < ' ' || ('\x7f' ≤ c && c ≤ '\x9f')

def hexDigits (width n : Nat) : List Char :=
  let ds := Nat.toDigits 16 n
  List.replicate (width - ds.length) '0' ++ ds

namespace Quoted

def markFor (s : List Char) : Char := if s.contains '\'' && !s.contains '"' then '"' else '\''

def escape (mark c : Char) : List Char :=
  if c = '\\' then ['\\', '\\']
  else if c = '\n' then ['\\', 'n']
  else if c = '\r' then ['\\', 'r']
  else if c = '\t' then ['\\', 't']
  else if c = mark then ['\\', c]
  else if isControl c then '\\' :: 'x' :: hexDigits 2 c.toNat
  else [c]

def encode (s : List Char) : List Char :=
  let mark := markFor s
  mark :: s.flatMap (escape mark) ++ [mark]

/-- One character between double quotes in a message: whatever is not plainly visible is given by
its code point. -/
def describeChar (c : Char) : List Char :=
  if c = '\x00' then ['\\', '0']
  else if c = '\t' then ['\\', 't']
  else if c = '\r' then ['\\', 'r']
  else if c = '\n' then ['\\', 'n']
  else if c = '\\' || c = '"' then ['\\', c]
  else if isPrintable c then [c]
  else ['\\', 'u', '\x7b'] ++ hexDigits 1 c.toNat ++ ['\x7d']

end Quoted

/-- A text as a literal on one line: escapes for controls, backslashes and the quote itself. -/
def quoted (s : String) : String := String.ofList (Quoted.encode s.toList)

def described (s : String) : String :=
  String.ofList ('"' :: s.toList.flatMap Quoted.describeChar ++ ['"'])

end DocSnapshot.Text
