import Mathlib.Data.List.Basic

/-! Slices of a text between byte offsets. A slice is there exactly where both offsets lie between
characters, in order and within the text. -/
namespace DocSnapshot.Text

def byteLength (s : List Char) : Nat := (String.ofList s).utf8ByteSize

/-- What stands in front of a byte offset and behind it, unless the offset lies inside a character
or behind the end. -/
def cutAt? : Nat → List Char → Option (List Char × List Char)
  | 0, s => some ([], s)
  | _ + 1, [] => none
  | n + 1, c :: s =>
    if c.utf8Size ≤ n + 1 then
      (cutAt? (n + 1 - c.utf8Size) s).map fun (front, rest) => (c :: front, rest)
    else none

def slice? (s : List Char) (start stop : Nat) : Option (List Char) := do
  let (upTo, _) ← cutAt? stop s
  let (_, part) ← cutAt? start upTo
  return part

def minus? (m n : Nat) : Option Nat := if n ≤ m then some (m - n) else none

@[simp] theorem byteLength_nil : byteLength [] = 0 := rfl

@[simp] theorem byteLength_append (s t : List Char) :
    byteLength (s ++ t) = byteLength s + byteLength t := by
  rw [byteLength, String.ofList_append, String.utf8ByteSize_append, byteLength, byteLength]

@[simp] theorem byteLength_cons (c : Char) (s : List Char) :
    byteLength (c :: s) = c.utf8Size + byteLength s := by
  have hone : byteLength [c] = c.utf8Size := by
    rw [byteLength, ← String.singleton_eq_ofList, String.utf8ByteSize_singleton]
  rw [← List.singleton_append, byteLength_append, hone]

@[simp] theorem byteLength_eq_zero_iff {s : List Char} : byteLength s = 0 ↔ s = [] := by
  cases s with
  | nil => simp
  | cons c s =>
    have hsize := c.utf8Size_pos
    rw [byteLength_cons]
    exact iff_of_false (by omega) (List.cons_ne_nil c s)

/-- An offset cuts a text exactly behind the characters that fill it. -/
theorem cutAt?_eq_some_iff {n : Nat} {s front rest : List Char} :
    cutAt? n s = some (front, rest) ↔ s = front ++ rest ∧ byteLength front = n := by
  fun_induction cutAt? n s generalizing front with
  | case1 s =>
    rw [byteLength_eq_zero_iff, Option.some_inj, Prod.mk.injEq, eq_comm (a := []), and_comm]
    refine and_congr_left fun hfront => ?_
    rw [hfront, List.nil_append]
  | case2 n =>
    refine iff_of_false nofun ?_
    rintro ⟨hnil,hlength⟩
    rw [(List.append_eq_nil_iff.mp hnil.symm).1] at hlength
    cases hlength
  | case3 n c s hfits ih =>
    cases front with
    | nil => simp
    | cons d front =>
      have hcut : (cutAt? (n + 1 - c.utf8Size) s).map (fun (front, rest) => (c :: front, rest)) =
          some (d :: front, rest) ↔ c = d ∧ cutAt? (n + 1 - c.utf8Size) s = some (front, rest) := by
        simp only [Option.map_eq_some_iff, Prod.exists, Prod.mk.injEq, List.cons.injEq]
        constructor
        · rintro ⟨_,_,h,⟨rfl,rfl⟩,rfl⟩
          exact ⟨rfl,h⟩
        · rintro ⟨rfl,h⟩
          exact ⟨_,_,h,⟨rfl,rfl⟩,rfl⟩
      rw [hcut, ih, List.cons_append, List.cons.injEq, byteLength_cons, and_assoc]
      refine and_congr_right fun hcd => and_congr_right fun _ => ?_
      rw [← hcd]
      omega
  | case4 n c s hover =>
    refine iff_of_false nofun ?_
    rintro ⟨hcons,hlength⟩
    cases front with
    | nil => cases hlength
    | cons d front =>
      obtain ⟨rfl,-⟩ := List.cons.inj hcons
      rw [byteLength_cons] at hlength
      omega

/-- A slice is what stands between as many bytes as its offsets say. -/
theorem slice?_eq_some_iff {s part : List Char} {start stop : Nat} :
    slice? s start stop = some part ↔ ∃ front rest, s = front ++ part ++ rest ∧
      byteLength front = start ∧ byteLength (front ++ part) = stop := by
  have hslice : slice? s start stop = some part ↔ ∃ upTo rest front,
      cutAt? stop s = some (upTo, rest) ∧ cutAt? start upTo = some (front, part) := by
    simp [slice?, Option.bind_eq_some_iff]
  rw [hslice]
  constructor
  · rintro ⟨upTo,rest,front,hupTo,hfront⟩
    obtain ⟨rfl,hstop⟩ := cutAt?_eq_some_iff.mp hupTo
    obtain ⟨rfl,hstart⟩ := cutAt?_eq_some_iff.mp hfront
    exact ⟨front,rest,rfl,hstart,hstop⟩
  · rintro ⟨front,rest,hs,hstart,hstop⟩
    exact ⟨_,rest,front,cutAt?_eq_some_iff.mpr ⟨hs,hstop⟩,cutAt?_eq_some_iff.mpr ⟨rfl,hstart⟩⟩

theorem slice?_start (s t : List Char) : slice? (s ++ t) 0 (byteLength s) = some s :=
  slice?_eq_some_iff.mpr ⟨[],t,rfl,rfl,rfl⟩

theorem slice?_end (s t : List Char) :
    slice? (s ++ t) (byteLength s) (byteLength (s ++ t)) = some t :=
  slice?_eq_some_iff.mpr ⟨s,[],by simp,rfl,rfl⟩

end DocSnapshot.Text
