import Mathlib.Data.List.DropRight
import DocSnapshot.Text.CharClass

/-! Texts without the blanks around them. What trimming leaves is the one part of a text that has
only blanks on either side and none at its ends, so further blanks around a text change nothing. -/
namespace DocSnapshot.Text

def trimmed (s : String) : String := String.ofList (trim s.toList)

variable {s t front back : List Char}

private theorem trimStart_append (hfront : ∀ c ∈ front, isBlank c = true)
    (hs : ∀ c ∈ s.head?, isBlank c = false) : trimStart (front ++ s) = s := by
  rw [trimStart, List.dropWhile_append_of_pos hfront]
  cases s with
  | nil => rfl
  | cons c s =>
    have hc : isBlank c = false := hs c rfl
    rw [List.dropWhile_cons_of_neg (by simp [hc])]

private theorem trimEnd_append (hs : ∀ c ∈ s.getLast?, isBlank c = false)
    (hback : ∀ c ∈ back, isBlank c = true) : trimEnd (s ++ back) = s := by
  have hreverse : trimStart (back.reverse ++ s.reverse) = s.reverse :=
    trimStart_append (by simpa using hback) (by simpa using hs)
  rw [trimStart] at hreverse
  rw [trimEnd, List.reverse_append, hreverse, List.reverse_reverse]

private theorem trimStart_eq (s : List Char) :
    trimStart s = trim s ++ (trimStart s).rtakeWhile isBlank := by
  have hend : trimEnd (trimStart s) = (trimStart s).rdropWhile isBlank := rfl
  rw [trim, hend, List.rdropWhile_append_rtakeWhile]

private theorem exists_trim (s : List Char) : ∃ front back, s = front ++ trim s ++ back ∧
    (∀ c ∈ front, isBlank c = true) ∧ ∀ c ∈ back, isBlank c = true := by
  refine ⟨s.takeWhile isBlank,(trimStart s).rtakeWhile isBlank,?_,
    fun c => List.mem_takeWhile_imp,fun c => List.mem_rtakeWhile_imp⟩
  rw [List.append_assoc, ← trimStart_eq, trimStart, List.takeWhile_append_dropWhile]

private theorem isBlank_head?_trim {c : Char} (hc : c ∈ (trim s).head?) : isBlank c = false := by
  -- The first character left is also the first one behind the blanks in front.
  have hhead : (s.dropWhile isBlank).head? = some c := by
    change (trimStart s).head? = some c
    rw [trimStart_eq, List.head?_append, hc, Option.some_or]
  have hstop := List.head?_dropWhile_not isBlank s
  rwa [hhead] at hstop

private theorem isBlank_getLast?_trim {c : Char} (hc : c ∈ (trim s).getLast?) :
    isBlank c = false := by
  change c ∈ ((trimStart s).rdropWhile isBlank).getLast? at hc
  have hne : (trimStart s).rdropWhile isBlank ≠ [] := by
    intro hnil
    simp [hnil] at hc
  have hlast := List.rdropWhile_last_not isBlank (trimStart s) hne
  rw [List.getLast?_eq_some_getLast hne] at hc
  cases hc
  simpa using hlast

/-- What is left of a text stands in it between blanks, and neither starts nor ends with one. -/
theorem trim_eq_iff : trim s = t ↔
    (∃ front back, s = front ++ t ++ back ∧ (∀ c ∈ front, isBlank c = true) ∧
      ∀ c ∈ back, isBlank c = true) ∧
    (∀ c ∈ t.head?, isBlank c = false) ∧ ∀ c ∈ t.getLast?, isBlank c = false := by
  constructor
  · rintro rfl
    exact ⟨exists_trim s,fun c => isBlank_head?_trim,fun c => isBlank_getLast?_trim⟩
  · rintro ⟨⟨front,back,rfl,hfront,hback⟩,hhead,hlast⟩
    cases t with
    | nil =>
      have hblank : ∀ c ∈ front ++ back, isBlank c = true :=
        List.forall_mem_append.mpr ⟨hfront,hback⟩
      have hstart : trimStart (front ++ back) = [] := by
        rw [← List.append_nil (front ++ back)]
        exact trimStart_append hblank (by simp)
      rw [trim, List.append_nil, hstart]
      rfl
    | cons d t =>
      rw [trim, List.append_assoc, trimStart_append hfront (by simpa using hhead),
        trimEnd_append hlast hback]

/-- Blanks around a text are lost. -/
theorem trim_append (hfront : ∀ c ∈ front, isBlank c = true)
    (hback : ∀ c ∈ back, isBlank c = true) : trim (front ++ s ++ back) = trim s := by
  obtain ⟨front',back',hs,hfront',hback'⟩ := exists_trim s
  refine trim_eq_iff.mpr ⟨⟨front ++ front',back' ++ back,?_,?_,?_⟩,
    fun c => isBlank_head?_trim,fun c => isBlank_getLast?_trim⟩
  · conv_lhs => rw [hs]
    simp only [List.append_assoc]
  · exact List.forall_mem_append.mpr ⟨hfront,hfront'⟩
  · exact List.forall_mem_append.mpr ⟨hback',hback⟩

/-- Nothing is left exactly of blanks. -/
theorem trim_eq_nil_iff : trim s = [] ↔ ∀ c ∈ s, isBlank c = true := by
  rw [trim_eq_iff]
  constructor
  · rintro ⟨⟨front,back,rfl,hfront,hback⟩,-⟩
    rw [List.append_nil]
    exact List.forall_mem_append.mpr ⟨hfront,hback⟩
  · intro h
    exact ⟨⟨s,[],by simp,h,by simp⟩,by simp,by simp⟩

end DocSnapshot.Text
