import DocSnapshot.Decimal.Binary64

/-! The shortest decimal of a floating-point number: of the decimals with the fewest digits that
round to it, the nearest, and of two equally near the larger. -/
namespace DocSnapshot.Decimal

structure Scaled where
  digits : Nat
  exponent : Int
  deriving DecidableEq, Repr

namespace Binary64

private def interval (m e : Nat) : Nat × Nat × Nat :=
  -- Below a power of two the neighbours lie twice as close.
  let low := if m = Nat.pow 2 52 ∧ 0 < e then 4 * m - 1 else 4 * m - 2
  (low, 4 * m, 4 * m + 2)

private def floorLog10 (num den : Nat) : Int :=
  if den ≤ num then ((Nat.toDigits 10 (num / den)).length : Int) - 1
  else
    let n := (Nat.toDigits 10 (den / num)).length
    if den ≤ num * Nat.pow 10 (n - 1) then -((n : Int) - 1) else -(n : Int)

private def onGrid (low v high den : Nat) (closed : Bool) (top : Int) (n : Nat) : Option Scaled :=
  -- Of two the nearer comes out, and on a tie the larger.
  let e : Int := top - n + 1
  let up := if 0 ≤ e then Nat.pow 10 e.toNat else 1
  let down := if 0 ≤ e then 1 else Nat.pow 10 (-e).toNat
  let inside (d : Nat) : Bool :=
    let x := d * up * den
    let l := low * down
    let h := high * down
    if closed then l ≤ x && x ≤ h else l < x && x < h
  let d := v * down / (up * den)
  let below := d * up * den
  let above := (d + 1) * up * den
  let nearBelow := v * down - below < above - v * down
  if inside d && (nearBelow || !inside (d + 1)) then some ⟨d, e⟩
  else if inside (d + 1) then some ⟨d + 1, e⟩
  else none

def shortest (x : Binary64) : Scaled :=
  let (m, e) := x.magnitude
  let (low, v, high) := interval m e
  let num := Nat.pow 2 e
  let den := Nat.pow 2 1076
  let top := floorLog10 (v * num) den
  let found := (List.range 17).findSome? fun k =>
    onGrid (low * num) (v * num) (high * num) den (m % 2 = 0) top (k + 1)
  found.getD ⟨0, 0⟩

end Binary64

end DocSnapshot.Decimal
