import DocSnapshot.Proofs.Python.Escapes

/-! A text as a literal. What is written between quotation marks stays on one line, ends at its
closing mark and is read as the text again. -/
namespace DocSnapshot.Python.StringLiteral
open DocSnapshot.Text (isControl hexDigits quoted)
open DocSnapshot.Text.Quoted (escape encode markFor)

def afterMark? (mark : Char) : List Char → Option (List Char)
  | '\\' :: _ :: rest => afterMark? mark rest
  | c :: rest => if c = mark then some rest else afterMark? mark rest
  | [] => none

/-- Whether a character is shown as itself: it is none of the controls of Unicode. -/
def Shown (c : Char) : Prop := 0x20 ≤ c.toNat ∧ ¬(0x7f ≤ c.toNat ∧ c.toNat ≤ 0x9f)

instance (c : Char) : Decidable (Shown c) := inferInstanceAs (Decidable (_ ∧ ¬(_ ∧ _)))

section Characters

variable {mark c : Char}

private theorem isControl_iff (c : Char) : isControl c = true ↔ ¬Shown c := by
  simp [isControl, Shown, Char.lt_def, Char.le_def, UInt32.lt_iff_toNat_lt,
    UInt32.le_iff_toNat_le]
  omega

private theorem digit_digitChar {k : Nat} (h : k < 16) :
    isHex k.digitChar = true ∧ digit k.digitChar = k := by
  have hall : ∀ k < 16, isHex k.digitChar = true ∧ digit k.digitChar = k := by decide
  exact hall k h

private theorem hexDigits_two {n : Nat} (h : n < 256) :
    hexDigits 2 n = [(n / 16).digitChar, (n % 16).digitChar] := by
  by_cases hsmall : n < 16
  · rw [hexDigits, Nat.toDigits_of_lt_base hsmall, Nat.div_eq_of_lt hsmall, Nat.mod_eq_of_lt hsmall]
    rfl
  · rw [hexDigits, Nat.toDigits_of_base_le (by decide) (Nat.le_of_not_lt hsmall),
      Nat.toDigits_of_lt_base (show n / 16 < 16 by omega)]
    rfl

private theorem hexDigits_control (h : isControl c = true) :
    (hexDigits 2 c.toNat).length = 2 ∧ (∀ d ∈ hexDigits 2 c.toNat, isHex d = true) ∧
      number 16 (hexDigits 2 c.toNat) = c.toNat := by
  have hlt : c.toNat < 256 := by
    rw [isControl_iff, Shown] at h
    omega
  obtain ⟨hhigh,hhigh'⟩ := digit_digitChar (show c.toNat / 16 < 16 by omega)
  obtain ⟨hlow,hlow'⟩ := digit_digitChar (show c.toNat % 16 < 16 by omega)
  rw [hexDigits_two hlt]
  refine ⟨rfl,by simp [hhigh, hlow],?_⟩
  have hnumber : number 16 [(c.toNat / 16).digitChar, (c.toNat % 16).digitChar] =
      c.toNat % 16 + 16 * (c.toNat / 16) := by
    simp [number, Nat.ofDigits_cons, hhigh', hlow']
  rw [hnumber, Nat.mod_add_div]

/-- A character is written as an escape with a letter, by its code point, or as itself. -/
theorem escape_cases (hmark : isQuote mark = true) (c : Char) :
    (∃ d, (d, c) ∈ escapeLetters ∧ escape mark c = ['\\', d]) ∨
    (isControl c = true ∧ escape mark c = '\\' :: 'x' :: hexDigits 2 c.toNat) ∨
    (c ≠ '\\' ∧ c ≠ mark ∧ isControl c = false ∧ escape mark c = [c]) := by
  by_cases hslash : c = '\\'
  · exact .inl ⟨'\\',by simp [escapeLetters, hslash],by simp [escape, hslash]⟩
  by_cases hline : c = '\n'
  · exact .inl ⟨'n',by simp [escapeLetters, hline],by simp [escape, hline]⟩
  by_cases hreturn : c = '\r'
  · exact .inl ⟨'r',by simp [escapeLetters, hreturn],by simp [escape, hreturn]⟩
  by_cases htab : c = '\t'
  · exact .inl ⟨'t',by simp [escapeLetters, htab],by simp [escape, htab]⟩
  by_cases hself : c = mark
  · subst hself
    refine .inl ⟨c,?_,by simp [escape, hslash, hline, hreturn, htab]⟩
    simp only [isQuote, Bool.or_eq_true, decide_eq_true_eq] at hmark
    rcases hmark with rfl | rfl <;> simp [escapeLetters]
  cases hcontrol : isControl c with
  | true =>
    exact .inr (.inl ⟨rfl,by simp [escape, hslash, hline, hreturn, htab, hself, hcontrol]⟩)
  | false =>
    exact .inr (.inr ⟨hslash,hself,rfl,
      by simp [escape, hslash, hline, hreturn, htab, hself, hcontrol]⟩)

/-- The escape of a character stands for it, whatever follows. -/
theorem piece_escape (hmark : isQuote mark = true) (c : Char) (rest : List Char) :
    Piece (escape mark c) [c] rest := by
  rcases escape_cases hmark c with ⟨d,hd,heq⟩ | ⟨hcontrol,heq⟩ | ⟨hslash,-,-,heq⟩
  · rw [heq]
    exact .letter rest hd
  · obtain ⟨hlength,hdigits,hnumber⟩ := hexDigits_control hcontrol
    have hvalid : (number 16 (hexDigits 2 c.toNat)).isValidChar := by
      rw [hnumber]
      exact c.valid
    have hpiece := Piece.scalar rest (d := 'x') (by simp [codeLetters, hlength]) hdigits hvalid
    rwa [hnumber, Char.ofNat_toNat, ← heq] at hpiece
  · rw [heq]
    exact .plain rest hslash

private theorem afterMark?_cons (hslash : c ≠ '\\') (hself : c ≠ mark) (rest : List Char) :
    afterMark? mark (c :: rest) = afterMark? mark rest := by
  rw [afterMark?.eq_def]
  split
  · next heq => exact absurd (List.cons.inj heq).1 hslash
  · next heq => rw [← (List.cons.inj heq).1, ← (List.cons.inj heq).2, if_neg hself]
  · next heq => cases heq

private theorem afterMark?_digits (hmark : isQuote mark = true) {ds : List Char}
    (h : ∀ d ∈ ds, isHex d = true) (rest : List Char) :
    afterMark? mark (ds ++ rest) = afterMark? mark rest := by
  induction ds with
  | nil => rfl
  | cons d ds ih =>
    rw [List.forall_mem_cons] at h
    have hslash : d ≠ '\\' := by
      rintro rfl
      exact absurd h.1 (by decide)
    have hself : d ≠ mark := by
      rintro rfl
      simp only [isQuote, Bool.or_eq_true, decide_eq_true_eq] at hmark
      rcases hmark with rfl | rfl
      · exact absurd h.1 (by decide)
      · exact absurd h.1 (by decide)
    rw [List.cons_append, afterMark?_cons hslash hself, ih h.2]

/-- The escape of a character does not end a literal. -/
theorem afterMark?_escape (hmark : isQuote mark = true) (c : Char) (rest : List Char) :
    afterMark? mark (escape mark c ++ rest) = afterMark? mark rest := by
  rcases escape_cases hmark c with ⟨d,hd,heq⟩ | ⟨hcontrol,heq⟩ | ⟨hslash,hself,-,heq⟩
  · rw [heq]
    rfl
  · rw [heq, List.cons_append, List.cons_append, afterMark?]
    exact afterMark?_digits hmark (hexDigits_control hcontrol).2.1 rest
  · rw [heq]
    exact afterMark?_cons hslash hself rest

private theorem shown_of_isHex (h : isHex c = true) : Shown c := by
  simp [isHex, Char.isDigit, Char.le_def, UInt32.le_iff_toNat_le] at h
  rw [Shown]
  omega

/-- The escape of a character shows no control. -/
theorem shown_escape (hmark : isQuote mark = true) (c : Char) : ∀ d ∈ escape mark c, Shown d := by
  have hslash : Shown '\\' := by decide
  rcases escape_cases hmark c with ⟨d,hd,heq⟩ | ⟨hcontrol,heq⟩ | ⟨-,-,hcontrol,heq⟩
  · have hall : ∀ p ∈ escapeLetters, Shown p.1 := by decide
    rw [heq]
    exact List.forall_mem_cons.mpr ⟨hslash,List.forall_mem_singleton.mpr (hall _ hd)⟩
  · rw [heq]
    refine List.forall_mem_cons.mpr ⟨hslash,List.forall_mem_cons.mpr ⟨by decide,fun d hd => ?_⟩⟩
    exact shown_of_isHex ((hexDigits_control hcontrol).2.1 d hd)
  · rw [heq, List.forall_mem_singleton]
    by_contra hshown
    rw [(isControl_iff c).mpr hshown] at hcontrol
    cases hcontrol

/-- The escape of a character does not begin with the mark. -/
theorem head?_escape (hmark : isQuote mark = true) (c : Char) (rest : List Char) :
    (escape mark c ++ rest).head? ≠ some mark := by
  have hslash : '\\' ≠ mark := by
    rintro rfl
    exact absurd hmark (by decide)
  rcases escape_cases hmark c with ⟨d,-,heq⟩ | ⟨-,heq⟩ | ⟨-,hself,-,heq⟩
  · simpa [heq] using hslash
  · simpa [heq] using hslash
  · simpa [heq] using hself

end Characters

section Bodies

variable {mark : Char}

theorem isQuote_markFor (s : List Char) : isQuote (markFor s) = true := by
  rw [markFor]
  split <;> decide

theorem decode_escapes (hmark : isQuote mark = true) (s : List Char) :
    decode (s.flatMap (escape mark)) = s := by
  induction s with
  | nil => rw [List.flatMap_nil, decode]
  | cons c s ih =>
    rw [List.flatMap_cons, decode_piece (piece_escape hmark c _), ih]
    rfl

theorem afterMark?_escapes (hmark : isQuote mark = true) (s rest : List Char) :
    afterMark? mark (s.flatMap (escape mark) ++ mark :: rest) = some rest := by
  induction s with
  | nil =>
    simp only [isQuote, Bool.or_eq_true, decide_eq_true_eq] at hmark
    rcases hmark with rfl | rfl <;> rfl
  | cons c s ih => rw [List.flatMap_cons, List.append_assoc, afterMark?_escape hmark, ih]

theorem head?_escapes (hmark : isQuote mark = true) (s : List Char) :
    (s.flatMap (escape mark)).head? ≠ some mark := by
  cases s with
  | nil => simp
  | cons c s => exact head?_escape hmark c _

/-- A body between single marks is found, if no mark stands in front of it. -/
theorem split?_single {body : List Char} (hmark : isQuote mark = true)
    (hbody : body.head? ≠ some mark) :
    split? (mark :: body ++ [mark]) = some ([], [mark], body) := by
  have hopening : openingMark mark (body ++ [mark]) = [mark] := by
    rw [openingMark, if_neg]
    cases body with
    | nil => simp
    | cons c body =>
      have hc : c ≠ mark := by simpa using hbody
      simp [hc]
  simp [split?, hmark, hopening]

theorem parse?_quoted (s : String) : parse? (quoted s) = some ⟨false, false, false, s⟩ := by
  have hmark := isQuote_markFor s.toList
  have hsplit := split?_single hmark (head?_escapes hmark s.toList)
  rw [parse?, quoted, String.toList_ofList, encode, hsplit]
  simp [decode_escapes hmark]

end Bodies

/-- A text in quotation marks is one literal on one line. It is read as the text, neither raw nor
as bytes nor as a format string; its first mark that no backslash takes is the closing one,
whatever follows; it shows no control; and it is the literal of no other text. -/
theorem quoted_is_one_literal (s : String) :
    parse? (quoted s) = some ⟨false, false, false, s⟩ ∧
    (∃ mark body, (mark = '\'' ∨ mark = '"') ∧ (quoted s).toList = mark :: body ++ [mark] ∧
      ∀ rest, afterMark? mark (body ++ mark :: rest) = some rest) ∧
    (∀ c ∈ (quoted s).toList, Shown c) ∧ ∀ t, quoted t = quoted s → t = s := by
  have hmark := isQuote_markFor s.toList
  have hquote : markFor s.toList = '\'' ∨ markFor s.toList = '"' := by
    simpa [isQuote, or_comm] using hmark
  have hlist : (quoted s).toList =
      markFor s.toList :: s.toList.flatMap (escape (markFor s.toList)) ++ [markFor s.toList] := by
    rw [quoted, String.toList_ofList, encode]
  refine ⟨parse?_quoted s,⟨_,_,hquote,hlist,afterMark?_escapes hmark s.toList⟩,?_,?_⟩
  · have hshown : Shown (markFor s.toList) := by rcases hquote with h | h <;> rw [h] <;> decide
    intro c hc
    simp only [hlist, List.cons_append, List.mem_cons, List.mem_append, List.mem_flatMap,
      List.not_mem_nil, or_false] at hc
    rcases hc with rfl | ⟨d,-,hd⟩ | rfl
    · exact hshown
    · exact shown_escape hmark d c hd
    · exact hshown
  · intro t ht
    have hparse := parse?_quoted t
    rw [ht, parse?_quoted s] at hparse
    simpa using hparse.symm

end DocSnapshot.Python.StringLiteral
