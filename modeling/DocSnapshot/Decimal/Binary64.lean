/-! Binary floating-point numbers of 64 bits, read from decimals and written with the fewest digits
that read back. All arithmetic is on natural numbers. -/
namespace DocSnapshot.Decimal

/-- A number by its bits: sign, eleven bits of exponent, 52 bits of fraction. -/
structure Binary64 where
  bits : UInt64
  deriving DecidableEq, Repr

namespace Binary64

def negative (x : Binary64) : Bool := x.bits >>> 63 == 1

private def biased (x : Binary64) : Nat := ((x.bits >>> 52) &&& 0x7ff).toNat

private def fraction (x : Binary64) : Nat := (x.bits &&& 0xfffffffffffff).toNat

def isNaN (x : Binary64) : Bool := x.biased = 0x7ff && x.fraction ≠ 0

def isInfinite (x : Binary64) : Bool := x.biased = 0x7ff && x.fraction = 0

def magnitude (x : Binary64) : Nat × Nat :=
  if x.biased = 0 then (x.fraction, 0) else (x.fraction + Nat.pow 2 52, x.biased - 1)

private def roundDiv (num den : Nat) : Nat :=
  let q := num / den
  let r := 2 * (num % den)
  if r < den then q else if den < r then q + 1 else q + q % 2

private def exponentFor (num den : Nat) : Nat :=
  let guess := num.log2 + 1074 - den.log2
  let e := guess - 53
  let fits (e : Nat) : Bool := num * Nat.pow 2 1074 < den * Nat.pow 2 (e + 53)
  if fits e then e else e + 1

def ofRatio (num den : Nat) : Binary64 :=
  if num = 0 then ⟨0⟩
  else
    let e := exponentFor num den
    let m := roundDiv (num * Nat.pow 2 1074) (den * Nat.pow 2 e)
    let normal := Nat.pow 2 52
    let raw := if m < normal then m else m - normal + (e + 1) * normal
    if raw < 0x7ff * normal then ⟨raw.toUInt64⟩ else ⟨0x7ff0000000000000⟩

/-- The number nearest to `m * 10 ^ e`. Exponents far outside the range are settled by size. -/
def ofDecimal (m : Nat) (e : Int) : Binary64 :=
  let size := (Nat.toDigits 10 m).length + e
  if m = 0 || size < -330 then ⟨0⟩
  else if 320 < size then ⟨0x7ff0000000000000⟩
  else if 0 ≤ e then ofRatio (m * Nat.pow 10 e.toNat) 1 else ofRatio m (Nat.pow 10 (-e).toNat)

end Binary64

end DocSnapshot.Decimal
