import DocSnapshot.Decimal.Shortest
import DocSnapshot.Python.StringLiteral

/-! Constant values of Python sources and how they are written. -/
namespace DocSnapshot.Python
open DocSnapshot.Decimal (Binary64 Scaled)

/-- A constant. Bytes and imaginary numbers are kept as written, integers as decimals. -/
inductive Literal where
  | str (s : String)
  | bytes (body : String)
  | int (digits : String)
  | float (x : Binary64)
  | complex (text : String)
  | bool (b : Bool)
  | none
  | ellipsis
  deriving DecidableEq, Repr

namespace Literal

/-- Digits with a point: positional from 0.0001 up to 10 ^ 16, otherwise one digit before the point
and a signed exponent of at least two digits. -/
def renderScaled (s : Scaled) : String :=
  let ds := Nat.toDigits 10 s.digits
  let point : Int := ds.length + s.exponent
  let zeros (n : Nat) : List Char := List.replicate n '0'
  if -4 < point ∧ point ≤ 16 then
    if point ≤ 0 then String.ofList ('0' :: '.' :: zeros (-point).toNat ++ ds)
    else if point < ds.length then
      String.ofList (ds.take point.toNat ++ '.' :: ds.drop point.toNat)
    else String.ofList (ds ++ zeros (point.toNat - ds.length) ++ ['.', '0'])
  else
    let e := point - 1
    let digits := Nat.toDigits 10 e.natAbs
    let fraction := if ds.length = 1 then [] else '.' :: ds.tail
    String.ofList (ds.take 1 ++ fraction ++ 'e' :: (if e < 0 then '-' else '+') ::
      (zeros (2 - digits.length) ++ digits))

def renderFloat (x : Binary64) : String :=
  if x.isNaN then "nan"
  else
    let body :=
      if x.isInfinite then "inf"
      else if x.magnitude.1 = 0 then "0.0"
      else renderScaled (Scaled.trim x.shortest)
    if x.negative then "-" ++ body else body
where
  /-- The same number without trailing zeros in its digits. -/
  Scaled.trim (s : Scaled) : Scaled :=
    let ds := Nat.toDigits 10 s.digits
    let n := (ds.reverse.takeWhile (· = '0')).length
    ⟨s.digits / Nat.pow 10 n, s.exponent + n⟩

def repr : Literal → String
  | .str s => Text.quoted s
  | .bytes body =>
    let mark := String.singleton (Text.Quoted.markFor body.toList)
    "b" ++ mark ++ body ++ mark
  | .int digits => digits
  | .float x => renderFloat x
  | .complex text => text
  | .bool true => "True"
  | .bool false => "False"
  | .none => "None"
  | .ellipsis => "Ellipsis"

def display : Literal → String
  | .str s => s
  | other => other.repr

def withoutUnderscores (text : String) : List Char := text.toList.filter (· ≠ '_')

def isImaginary (cs : List Char) : Bool := cs.getLast?.any fun c => c = 'j' || c = 'J'

def baseOf (cs : List Char) : Nat × List Char :=
  match cs with
  | '0' :: 'x' :: ds => (16, ds)
  | '0' :: 'o' :: ds => (8, ds)
  | '0' :: 'b' :: ds => (2, ds)
  | ds => (10, ds)

def isDigitIn (base : Nat) (c : Char) : Bool :=
  StringLiteral.isHex c && StringLiteral.digitValue c < base

def integerValue? (cs : List Char) : Option Nat :=
  let (base, ds) := baseOf cs
  if ds ≠ [] && ds.all (isDigitIn base) && StringLiteral.numberOf base ds < Nat.pow 2 128 then
    some (StringLiteral.numberOf base ds)
  else Option.none

/-- An integer token. Values from 2 ^ 128 on keep their spelling, in lower case. -/
def ofInteger (text : String) : Literal :=
  let cs := withoutUnderscores text
  if isImaginary cs then .complex (String.ofList cs)
  else
    let cs := ((cs.reverse.dropWhile fun c => c = 'l' || c = 'L').reverse).map Char.toLower
    match integerValue? cs with
    | some n => .int (String.ofList (Nat.toDigits 10 n))
    | Option.none => .int (String.ofList cs)

def decimalValue (cs : List Char) : Binary64 :=
  let isMark (c : Char) : Bool := c = 'e' || c = 'E'
  let body := cs.takeWhile (!isMark ·)
  let exponent := (cs.dropWhile (!isMark ·)).drop 1
  let whole := body.takeWhile (· ≠ '.')
  let fraction := (body.dropWhile (· ≠ '.')).drop 1
  let e : Int := match exponent with
    | '-' :: ds => -(StringLiteral.numberOf 10 ds : Int)
    | '+' :: ds => StringLiteral.numberOf 10 ds
    | ds => StringLiteral.numberOf 10 ds
  Binary64.ofDecimal (StringLiteral.numberOf 10 (whole ++ fraction)) (e - fraction.length)

def ofFloat (text : String) : Literal :=
  let cs := withoutUnderscores text
  if isImaginary cs then .complex (String.ofList cs) else .float (decimalValue cs)

end Literal

end DocSnapshot.Python
