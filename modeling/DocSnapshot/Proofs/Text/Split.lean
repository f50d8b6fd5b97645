import DocSnapshot.Text.Split

/-! What stands between separators. None of the parts holds the separator, and a text put together
from parts has no characters but theirs and those of the separator. -/
namespace DocSnapshot.Text

variable {c : Char} {part separator : List Char} {parts : List (List Char)}

theorem splitOn_cons_self (c : Char) (s : List Char) : (c :: s).splitOn c = [] :: s.splitOn c := by
  simp [List.splitOn_cons_eq_if_modifyHead]

theorem not_mem_of_mem_splitOn {s : List Char} (h : part ∈ s.splitOn c) : c ∉ part := by
  induction s generalizing part with
  | nil =>
    rw [List.splitOn_nil, List.mem_singleton] at h
    simp [h]
  | cons d rest ih =>
    obtain ⟨first,parts,hsplit⟩ := List.exists_cons_of_ne_nil (List.splitOn_ne_nil c rest)
    rw [hsplit] at ih
    by_cases hd : d = c
    · rw [hd, splitOn_cons_self, hsplit] at h
      rcases List.mem_cons.mp h with rfl | h
      · exact List.not_mem_nil
      · exact ih h
    · simp only [List.splitOn_cons_eq_if_modifyHead, beq_iff_eq, if_neg hd, hsplit,
        List.modifyHead_cons] at h
      rcases List.mem_cons.mp h with rfl | h
      · exact List.not_mem_cons_of_ne_of_not_mem (Ne.symm hd) (ih List.mem_cons_self)
      · exact ih (List.mem_cons_of_mem _ h)

theorem mem_intercalate (h : c ∈ separator.intercalate parts) :
    c ∈ separator ∨ ∃ part ∈ parts, c ∈ part := by
  induction parts with
  | nil => cases h
  | cons part rest ih =>
    cases rest with
    | nil => exact .inr ⟨part,List.mem_cons_self,by simpa using h⟩
    | cons next rest =>
      rw [List.intercalate_cons_cons, List.mem_append, List.mem_append] at h
      rcases h with (hpart | hseparator) | hrest
      · exact .inr ⟨part,List.mem_cons_self,hpart⟩
      · exact .inl hseparator
      · obtain hseparator | ⟨other,hother,hin⟩ := ih hrest
        · exact .inl hseparator
        · exact .inr ⟨other,List.mem_cons_of_mem _ hother,hin⟩

theorem intercalate_concat (hne : parts ≠ []) (separator part : List Char) :
    separator.intercalate (parts ++ [part]) = separator.intercalate parts ++ separator ++ part := by
  induction parts with
  | nil => exact (hne rfl).elim
  | cons first rest ih =>
    cases rest with
    | nil => simp
    | cons second rest =>
      have hrest := ih (by simp)
      simp only [List.cons_append, List.intercalate_cons_cons, List.append_assoc] at hrest ⊢
      rw [hrest]

end DocSnapshot.Text
