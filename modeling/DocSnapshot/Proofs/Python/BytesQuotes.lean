import DocSnapshot.Python.Literal
import DocSnapshot.Proofs.Python.Delimiters

/-! Bytes as literals. A body is shown between marks as it stands, so it is the body of a literal
again unless it holds both quotes, the single one without a backslash in front. -/
namespace DocSnapshot.Python.StringLiteral
open DocSnapshot.Text.Quoted (markFor)

/-- Bytes are shown as one literal: no mark inside that no backslash takes, and the same body where
the literal is read. -/
structure ReadsBack (value : String) : Prop where
  shut : ∃ mark, (mark = '\'' ∨ mark = '"') ∧
    (Literal.bytes value).repr.toList = 'b' :: mark :: value.toList ++ [mark] ∧
    afterMark? mark value.toList = none
  read : ∃ s, parse? (Literal.bytes value).repr = some s ∧ s.bytes = true ∧ s.value = value

section Marks

variable {mark : Char} {body : List Char}

theorem toList_repr_bytes (value : String) : (Literal.bytes value).repr.toList =
    'b' :: markFor value.toList :: value.toList ++ [markFor value.toList] := by
  simp [Literal.repr]

private theorem afterMark?_of_not_mem (h : mark ∉ body) : afterMark? mark body = none := by
  fun_induction afterMark? mark body with
  | case1 d rest ih => exact ih fun hmem => h (by simp [hmem])
  | case2 rest hslash => exact absurd List.mem_cons_self h
  | case3 c rest hslash hc ih => exact ih fun hmem => h (List.mem_cons_of_mem c hmem)
  | case4 => rfl

private theorem afterMark?_self (hmark : isQuote mark = true) (rest : List Char) :
    afterMark? mark (mark :: rest) = some rest := by
  rcases isQuote_iff.mp hmark with rfl | rfl <;> simp [afterMark?]

/-- The mark chosen for a body is free in it, unless the body holds a double quote, and a single
quote that no backslash takes. -/
theorem afterMark?_markFor (body : List Char) : afterMark? (markFor body) body = none ↔
    ¬('"' ∈ body ∧ afterMark? '\'' body ≠ none) := by
  by_cases hdouble : '"' ∈ body
  · have hmark : markFor body = '\'' := by simp [markFor, hdouble]
    rw [hmark, not_and_not_right]
    exact ⟨fun h _ => h,fun h => h hdouble⟩
  · refine iff_of_true (afterMark?_of_not_mem ?_) fun h => hdouble h.1
    by_cases hsingle : '\'' ∈ body
    · have hmark : markFor body = '"' := by simp [markFor, hdouble, hsingle]
      rwa [hmark]
    · have hmark : markFor body = '\'' := by simp [markFor, hsingle]
      rwa [hmark]

private theorem delimited_of_free (hmark : isQuote mark = true)
    (hfree : afterMark? mark body = none) :
    Delimited ('b' :: mark :: body ++ [mark]) ['b'] [mark] body := by
  refine ⟨rfl,by simp,mark,isQuote_iff.mp hmark,.inr ⟨rfl,fun hthree => ?_⟩⟩
  -- A body that begins with the mark would have it free of backslashes at once.
  cases body with
  | nil => simp at hthree
  | cons c rest =>
    obtain rfl : mark = c := by simp at hthree; exact hthree.1
    rw [afterMark?_self hmark] at hfree
    cases hfree

end Marks

/-- A body with the letter `b` in front is read as it stands. -/
theorem parse?_bytes {text : String} {mark body : List Char}
    (h : Delimited text.toList ['b'] mark body) : ∃ s, parse? text = some s ∧ s.bytes = true ∧
      s.formatted = false ∧ s.value = String.ofList body := by
  obtain ⟨s,hs,hmeans⟩ := parse?_of_delimited h
  have hbytes : s.bytes = true := hmeans.bytes_iff.mpr (by decide)
  have hformatted : s.formatted = false :=
    Bool.eq_false_iff.mpr (hmeans.formatted_iff.not.mpr (by decide))
  exact ⟨s,hs,hbytes,hformatted,by rw [hmeans.value_eq, hbytes, Bool.or_true, if_pos rfl]⟩

/-- Every text is the body of a bytes literal. -/
theorem exists_bytes (value : String) : ∃ text s, parse? text = some s ∧ s.bytes = true ∧
    s.formatted = false ∧ s.value = value := by
  have hparts : Delimited ("b'''" ++ value ++ "'''").toList ['b'] ['\'', '\'', '\'']
      value.toList := ⟨by simp,by simp,'\'',.inl rfl,.inl rfl⟩
  obtain ⟨s,hs,hbytes,hformatted,hvalue⟩ := parse?_bytes hparts
  exact ⟨_,s,hs,hbytes,hformatted,by rw [hvalue, String.ofList_toList]⟩

/-- Bytes are shown as a literal that reads back, exactly unless a double quote stands in the body
together with a single quote that no backslash takes; and every text is the body of a bytes
literal, so this does happen. -/
theorem repr_bytes_reads_back_iff (value : String) :
    (∃ text s, parse? text = some s ∧ s.bytes = true ∧ s.formatted = false ∧ s.value = value) ∧
    (ReadsBack value ↔ ¬('"' ∈ value.toList ∧ afterMark? '\'' value.toList ≠ none)) := by
  refine ⟨exists_bytes value,?_⟩
  rw [← afterMark?_markFor]
  constructor
  · rintro ⟨⟨mark,-,hlist,hfree⟩,-⟩
    rw [toList_repr_bytes] at hlist
    obtain rfl : markFor value.toList = mark := by simpa using hlist
    exact hfree
  · intro hfree
    have hmark := isQuote_markFor value.toList
    refine ⟨⟨_,isQuote_iff.mp hmark,toList_repr_bytes value,hfree⟩,?_⟩
    have hparts := delimited_of_free hmark hfree
    rw [← toList_repr_bytes] at hparts
    obtain ⟨s,hs,hbytes,-,hvalue⟩ := parse?_bytes hparts
    exact ⟨s,hs,hbytes,by rw [hvalue, String.ofList_toList]⟩

example : '"' ∈ "it's \\\"x\\\"".toList ∧ afterMark? '\'' "it's \\\"x\\\"".toList ≠ none := by
  decide

end DocSnapshot.Python.StringLiteral
