import Mathlib.Data.Nat.ModEq
import DocSnapshot.Proofs.Python.Docstring

/-! A docstring reads the same however deep its definition is indented. Moving all lines but the
first to the right moves their margin along, and as much more is cut off each of them. -/
namespace DocSnapshot.Python.Docstring
open DocSnapshot.Text

/-- A line further to the right. Empty lines stay empty. -/
def indent (k : Nat) (line : List Char) : List Char :=
  if line = [] then [] else List.replicate k ' ' ++ line

def indentRest (k : Nat) (ls : List (List Char)) : List (List Char) :=
  ls.take 1 ++ (ls.drop 1).map (indent k)

/-- A text with spaces in front of all its lines but the first and the empty ones. -/
def indented (k : Nat) (doc : String) : String :=
  String.ofList (List.intercalate ['\n'] (indentRest k (doc.toList.splitOn '\n')))

section Tabs

variable {k column : Nat} {line : List Char}

theorem expandTabs_of_not_mem (h : '\t' ∉ line) : expandTabs column line = line := by
  induction line generalizing column with
  | nil => rfl
  | cons c line ih =>
    rw [List.mem_cons, not_or] at h
    rw [expandTabs, if_neg (Ne.symm h.1), ih h.2]

/-- Tab stops lie eight columns apart. -/
theorem expandTabs_congr {column' : Nat} (h : column % 8 = column' % 8) :
    expandTabs column line = expandTabs column' line := by
  induction line generalizing column column' with
  | nil => rfl
  | cons c line ih =>
    rw [expandTabs, expandTabs, h]
    dsimp only
    rw [ih (Nat.ModEq.add_right (8 - column' % 8) h), ih (Nat.ModEq.add_right 1 h)]

theorem expandTabs_replicate (k column : Nat) (line : List Char) :
    expandTabs column (List.replicate k ' ' ++ line) =
      List.replicate k ' ' ++ expandTabs (column + k) line := by
  induction k generalizing column with
  | zero => rfl
  | succ k ih =>
    rw [List.replicate_succ, List.cons_append, expandTabs, if_neg (by decide), ih,
      List.cons_append, Nat.add_assoc, Nat.add_comm 1 k]

theorem expandTabs_eq_nil_iff : expandTabs column line = [] ↔ line = [] := by
  cases line with
  | nil => simp [expandTabs]
  | cons c line =>
    have hpad : 8 - column % 8 ≠ 0 := by omega
    rw [expandTabs]
    split <;> simp [hpad]

/-- Tabs move along with their line if there are none or the line moves by whole tab stops. -/
theorem expandTabs_indent (h : '\t' ∉ line ∨ 8 ∣ k) :
    expandTabs 0 (indent k line) = indent k (expandTabs 0 line) := by
  have hcolumn : expandTabs (0 + k) line = expandTabs 0 line := by
    rcases h with h | h
    · rw [expandTabs_of_not_mem h, expandTabs_of_not_mem h]
    · exact expandTabs_congr (by omega)
  by_cases hline : line = []
  · rw [hline]; rfl
  · rw [indent, if_neg hline, indent, if_neg (by rwa [expandTabs_eq_nil_iff]),
      expandTabs_replicate, hcolumn]

end Tabs

section Lines

variable {k : Nat} {doc : String}

private theorem not_mem_indent {line : List Char} (h : '\n' ∉ line) : '\n' ∉ indent k line := by
  rw [indent]
  split
  · exact List.not_mem_nil
  · rw [List.mem_append, not_or]
    exact ⟨fun hmem => absurd (List.eq_of_mem_replicate hmem) (by decide),h⟩

theorem splitOn_indented (k : Nat) (doc : String) :
    (indented k doc).toList.splitOn '\n' = indentRest k (doc.toList.splitOn '\n') := by
  have hfree : ∀ line ∈ doc.toList.splitOn '\n', '\n' ∉ line := by
    intro line hline
    exact not_mem_of_mem_splitOn hline
  rw [indented, String.toList_ofList]
  refine List.splitOn_intercalate '\n' (fun line hline => ?_) ?_
  · rcases List.mem_append.mp hline with hline | hline
    · exact hfree line (List.mem_of_mem_take hline)
    · obtain ⟨whole,hwhole,rfl⟩ := List.mem_map.mp hline
      exact not_mem_indent (hfree whole (List.mem_of_mem_drop hwhole))
  · obtain ⟨first,rest,hsplit⟩ := List.exists_cons_of_ne_nil (List.splitOn_ne_nil '\n' doc.toList)
    simp [indentRest, hsplit]

/-- Lines have no characters but those of their text. -/
theorem mem_of_mem_splitOn {c : Char} {s line : List Char} (h : line ∈ s.splitOn '\n')
    (hc : c ∈ line) : c ∈ s := by
  have hs : List.intercalate ['\n'] (s.splitOn '\n') = s := List.intercalate_splitOn '\n'
  rw [← hs]
  generalize s.splitOn '\n' = ls at h
  induction ls with
  | nil => cases h
  | cons first rest ih =>
    rcases List.mem_cons.mp h with rfl | h
    · cases rest with
      | nil => simpa using hc
      | cons next rest =>
        rw [List.intercalate_cons_cons]
        exact List.mem_append_left _ (List.mem_append_left _ hc)
    · cases rest with
      | nil => cases h
      | cons next rest =>
        rw [List.intercalate_cons_cons]
        exact List.mem_append_right _ (ih h)

/-- Expanding the tabs of an indented text indents its expanded lines. -/
theorem expandedLines_indented (h : '\t' ∉ doc.toList ∨ 8 ∣ k) :
    expandedLines (indented k doc) = indentRest k (expandedLines doc) := by
  have htab (line : List Char) (hline : line ∈ (doc.toList.splitOn '\n').drop 1) :
      expandTabs 0 (indent k line) = indent k (expandTabs 0 line) :=
    expandTabs_indent (h.imp_left fun h hmem =>
      h (mem_of_mem_splitOn (List.mem_of_mem_drop hline) hmem))
  rw [expandedLines, splitOn_indented, expandedLines, indentRest, indentRest, List.map_append,
    List.map_take, ← List.map_drop, List.map_map, List.map_map]
  exact congrArg _ (List.map_congr_left htab)

end Lines

section Margin

variable {k m : Nat} {line : List Char} {ls : List (List Char)}

theorem isBlankLine_indent (k : Nat) (line : List Char) :
    isBlankLine (indent k line) = isBlankLine line := by
  have hspace : isBlank ' ' = true := by decide
  rw [indent]
  split
  · next hline => rw [hline]
  · simp [isBlankLine, hspace]

theorem indentWidth_indent (h : isBlankLine line = false) :
    indentWidth (indent k line) = k + indentWidth line := by
  have hline : line ≠ [] := by
    rintro rfl
    cases h
  rw [indent, if_neg hline, indentWidth_append]

/-- As much as a line moves to the right is cut off in addition. -/
theorem cut_indent (k m : Nat) (line : List Char) : cut (k + m) (indent k line) = cut m line := by
  rw [indent]
  split
  · next hline => rw [hline, cut, cut, List.drop_nil, List.drop_nil]
  · rw [cut, cut, indentWidth_append, Nat.add_min_add_left, ← List.drop_drop]
    simp

private theorem min?_map_add (k : Nat) (widths : List Nat) :
    (widths.map (k + ·)).min? = widths.min?.map (k + ·) := by
  induction widths with
  | nil => rfl
  | cons w widths ih =>
    rw [List.map_cons, List.min?_cons, List.min?_cons, ih, Option.map_some]
    cases widths.min? with
    | none => rfl
    | some v => exact congrArg some (Nat.add_min_add_left k w v)

/-- The margin moves along with the lines. -/
theorem margin?_indent (k : Nat) (ls : List (List Char)) :
    margin? (ls.map (indent k)) = (margin? ls).map (k + ·) := by
  have htext : (ls.map (indent k)).filter (!isBlankLine ·) =
      (ls.filter (!isBlankLine ·)).map (indent k) := by
    rw [List.filter_map]
    simp [Function.comp_def, isBlankLine_indent]
  rw [margin?, margin?, htext, ← min?_map_add, List.map_map, List.map_map]
  refine congrArg List.min? (List.map_congr_left fun line hline => ?_)
  rw [List.mem_filter, Bool.not_eq_true'] at hline
  exact indentWidth_indent hline.2

/-- Lines with text behind the first lose what they have been moved by. -/
theorem shifted_indentRest (h : ∃ line ∈ ls.drop 1, isBlankLine line = false) :
    shifted (indentRest k ls) = shifted ls := by
  obtain ⟨line,hline,htext⟩ := h
  obtain ⟨first,rest,rfl⟩ := List.exists_cons_of_ne_nil (l := ls) (by rintro rfl; cases hline)
  obtain ⟨m,hm⟩ : ∃ m, margin? rest = some m := by
    refine Option.ne_none_iff_exists'.mp fun hnone => ?_
    rw [margin?, List.min?_eq_none_iff, List.map_eq_nil_iff, List.filter_eq_nil_iff] at hnone
    simpa [htext] using hnone line hline
  have hmargin : marginOf (indentRest k (first :: rest)) = k + marginOf (first :: rest) := by
    simp [marginOf, indentRest, margin?_indent, hm]
  rw [shifted, hmargin, shifted]
  simp [indentRest, Function.comp_def, cut_indent]

/-- Without text behind the first line nothing of the other lines is kept. -/
theorem trimBlankLines_append {front back : List (List Char)}
    (h : ∀ line ∈ back, isBlankLine line = true) :
    trimBlankLines (front ++ back) = trimBlankLines front := by
  have hback : ∀ line ∈ back.reverse, isBlankLine line = true :=
    fun line hline => h line (List.mem_reverse.mp hline)
  rw [trimBlankLines, trimBlankLines, List.reverse_append, List.dropWhile_append_of_pos hback]

/-- What is kept of lines of which only the first may have text. -/
theorem trimBlankLines_shifted (h : ∀ line ∈ ls.drop 1, isBlankLine line = true) :
    trimBlankLines (shifted ls) = trimBlankLines ((ls.take 1).map trimStart) := by
  refine trimBlankLines_append fun line hline => ?_
  obtain ⟨whole,hwhole,rfl⟩ := List.mem_map.mp hline
  rw [isBlankLine_cut, h whole hwhole]

theorem trimBlankLines_indentRest (k : Nat) (ls : List (List Char)) :
    trimBlankLines (shifted (indentRest k ls)) = trimBlankLines (shifted ls) := by
  by_cases h : ∃ line ∈ ls.drop 1, isBlankLine line = false
  · rw [shifted_indentRest h]
  · have hblank : ∀ line ∈ ls.drop 1, isBlankLine line = true := by simpa using h
    have htake : (indentRest k ls).take 1 = ls.take 1 := by cases ls <;> rfl
    rw [trimBlankLines_shifted hblank, trimBlankLines_shifted, htake]
    intro line hline
    have hdrop : (indentRest k ls).drop 1 = (ls.drop 1).map (indent k) := by
      cases ls <;> rfl
    rw [hdrop] at hline
    obtain ⟨whole,hwhole,rfl⟩ := List.mem_map.mp hline
    rw [isBlankLine_indent, hblank whole hwhole]

end Margin

/-- A docstring does not depend on how deep its lines behind the first are indented together: by any
number of spaces if it has no tabs, and by whole tab stops if it has. -/
theorem clean_indented (doc : String) (k : Nat) (h : '\t' ∉ doc.toList ∨ 8 ∣ k) :
    clean (indented k doc) = clean doc := by
  rw [clean, clean, cleanLines_expanded, cleanLines_expanded, expandedLines_indented h,
    trimBlankLines_indentRest]

/-- A blank first line, an empty line, a line of spaces only and, in the second text, a tab. -/
theorem clean_indented_tabs :
    '\t' ∉ " \n  a\n\n    b\n ".toList ∧
    indented 3 " \n  a\n\n    b\n " = " \n     a\n\n       b\n    " ∧
    clean (indented 3 " \n  a\n\n    b\n ") = "a\n\n  b" ∧
    8 ∣ 16 ∧ clean (indented 16 " \n  a\n\n\tb\n ") = "a\n\n      b" := by
  have hfree : '\t' ∉ " \n  a\n\n    b\n ".toList := by decide
  have hdvd : 8 ∣ 16 := by decide
  refine ⟨hfree,by decide,?_,hdvd,?_⟩
  · rw [clean_indented _ 3 (.inl hfree)]
    decide
  · rw [clean_indented _ 16 (.inr hdvd)]
    decide

end DocSnapshot.Python.Docstring
