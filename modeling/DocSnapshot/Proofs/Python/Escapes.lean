import Mathlib.Data.List.Basic
import Mathlib.Data.Nat.Digits.Defs
import DocSnapshot.Python.StringLiteral

/-! Escapes in the body of a literal. A body falls into pieces in one way, and what is decoded is
what its pieces stand for, one after another. -/
namespace DocSnapshot.Python.StringLiteral

def escapeLetters : List (Char × Char) :=
  [('\\', '\\'), ('\'', '\''), ('"', '"'), ('a', '\x07'), ('b', '\x08'), ('f', '\x0c'),
    ('n', '\n'), ('r', '\r'), ('t', '\t'), ('v', '\x0b')]

def codeLetters : List (Char × Nat) := [('x', 2), ('u', 4), ('U', 8)]

def digit (c : Char) : Nat := "0123456789abcdef".toList.idxOf c.toLower

def number (base : Nat) (ds : List Char) : Nat := Nat.ofDigits base (ds.map digit).reverse

/-- A text that makes up one piece of a body where a rest follows it, and what it stands for. -/
inductive Piece : (text value rest : List Char) → Prop where
  | plain {c : Char} (rest : List Char) (char : c ≠ '\\') : Piece [c] [c] rest
  | letter {d c : Char} (rest : List Char) (known : (d, c) ∈ escapeLetters) :
      Piece ['\\', d] [c] rest
  | lineEnd (rest : List Char) : Piece ['\\', '\n'] [] rest
  | octal {ds rest : List Char} (some : ds ≠ []) (few : ds.length ≤ 3)
      (digits : ∀ d ∈ ds, isOctal d = true)
      (ends : ds.length < 3 → ∀ d ∈ rest.head?, isOctal d = false) :
      Piece ('\\' :: ds) [Char.ofNat (number 8 ds)] rest
  | scalar {d : Char} {ds : List Char} (rest : List Char) (full : (d, ds.length) ∈ codeLetters)
      (digits : ∀ c ∈ ds, isHex c = true) (valid : (number 16 ds).isValidChar) :
      Piece ('\\' :: d :: ds) [Char.ofNat (number 16 ds)] rest
  | noScalar {d : Char} {ds : List Char} (rest : List Char) (full : (d, ds.length) ∈ codeLetters)
      (digits : ∀ c ∈ ds, isHex c = true) (invalid : ¬(number 16 ds).isValidChar) :
      Piece ('\\' :: d :: ds) ('\\' :: d :: ds) rest
  | short {d : Char} {ds rest : List Char} {width : Nat} (known : (d, width) ∈ codeLetters)
      (few : ds.length < width) (digits : ∀ c ∈ ds, isHex c = true)
      (ends : ∀ c ∈ rest.head?, isHex c = false) : Piece ('\\' :: d :: ds) ('\\' :: d :: ds) rest
  | other {d : Char} (rest : List Char) (lineEnd : d ≠ '\n') (octal : isOctal d = false)
      (letter : ∀ c, (d, c) ∉ escapeLetters) (code : ∀ width, (d, width) ∉ codeLetters) :
      Piece ['\\', d] ['\\', d] rest
  | lone : Piece ['\\'] ['\\'] []

/-- Whether texts are pieces, with what they stand for, if each is followed by the next ones. -/
def Pieces : List (List Char × List Char) → Prop
  | [] => True
  | (text, value) :: ps => Piece text value (ps.flatMap (·.1)) ∧ Pieces ps

section Digits

private theorem mem_of_isHex {c : Char} (h : isHex c = true) :
    c ∈ "0123456789abcdefABCDEF".toList := by
  have hcode : c.toNat ∈ "0123456789abcdefABCDEF".toList.map Char.toNat := by
    simp [isHex, Char.isDigit, Char.le_def, UInt32.le_iff_toNat_le] at h ⊢
    omega
  obtain ⟨d,hd,hcode⟩ := List.mem_map.mp hcode
  rwa [Char.ext (UInt32.toNat_inj.mp hcode)] at hd

theorem digitValue_eq {c : Char} (h : isHex c = true) : digitValue c = digit c := by
  -- Over a list: a quantifier over characters would be decided by trying all of them.
  have hall : "0123456789abcdefABCDEF".toList.all (fun c => digitValue c = digit c) = true := by
    decide
  exact of_decide_eq_true (List.all_eq_true.mp hall c (mem_of_isHex h))

/-- The digits of a number are read from the highest to the lowest. -/
theorem numberOf_eq {base : Nat} {ds : List Char} (h : ∀ d ∈ ds, isHex d = true) :
    numberOf base ds = number base ds := by
  rw [numberOf, number, Nat.ofDigits_eq_foldr, List.foldr_reverse, List.foldl_map]
  refine List.foldl_ext _ _ 0 fun n d hd => ?_
  rw [digitValue_eq (h d hd), Nat.cast_id, Nat.mul_comm, Nat.add_comm]

/-- Decimal notation is read as its number. -/
theorem numberOf_toDigits (n : Nat) : numberOf 10 (Nat.toDigits 10 n) = n := by
  have hvalue : ∀ d ∈ Nat.toDigits 10 n, ∀ k,
      k * 10 + digitValue d = 10 * k + (d.toNat - '0'.toNat) := by
    intro d hd k
    have hdigit : d.isDigit = true := Nat.isDigit_of_mem_toDigits (by decide) (by decide) hd
    rw [digitValue, if_pos hdigit, Nat.mul_comm]
  calc numberOf 10 (Nat.toDigits 10 n)
      = Nat.ofDigitChars 10 (Nat.toDigits 10 n) 0 := by
        rw [numberOf, Nat.ofDigitChars_eq_foldl]
        exact List.foldl_ext _ _ _ fun k d hd => hvalue d hd k
    _ = n := Nat.ofDigitChars_ten_toDigits

private theorem isHex_of_isOctal {c : Char} (h : isOctal c = true) : isHex c = true := by
  simp [isOctal, isHex, Char.isDigit, Char.le_def, UInt32.le_iff_toNat_le] at h ⊢
  omega

private theorem digit_lt {c : Char} (h : isOctal c = true) : digit c < 8 := by
  have hall : "0123456789abcdefABCDEF".toList.all (fun c => isOctal c → digit c < 8) = true := by
    decide
  exact of_decide_eq_true (List.all_eq_true.mp hall c (mem_of_isHex (isHex_of_isOctal h))) h

/-- Three octal digits name a character. -/
theorem isValidChar_octal {ds : List Char} (h : ∀ d ∈ ds, isOctal d = true)
    (hlength : ds.length ≤ 3) : (number 8 ds).isValidChar := by
  have hlt : number 8 ds < 8 ^ ds.length := by
    have := Nat.ofDigits_lt_base_pow_length (b := 8) (l := (ds.map digit).reverse) (by decide) ?_
    · simpa [number] using this
    · intro n hn
      rw [List.mem_reverse, List.mem_map] at hn
      obtain ⟨d,hd,rfl⟩ := hn
      exact digit_lt (h d hd)
  have hpow : 8 ^ ds.length ≤ 8 ^ 3 := Nat.pow_le_pow_right (by decide) hlength
  exact .inl (by omega)

theorem scalar?_eq {n : Nat} (h : n.isValidChar) : scalar? n = some (Char.ofNat n) := by
  rw [scalar?, dif_pos h, Char.ofNat, dif_pos h]

/-- Digits are taken up to the first character that is none, or until there are enough. -/
theorem takeUpTo_append {p : Char → Bool} {n : Nat} {ds rest : List Char}
    (hall : ∀ d ∈ ds, p d = true) (hlength : ds.length ≤ n)
    (hends : ds.length < n → ∀ d ∈ rest.head?, p d = false) : takeUpTo p n (ds ++ rest) = ds := by
  induction ds generalizing n with
  | nil =>
    cases n with
    | zero => rfl
    | succ n =>
      cases rest with
      | nil => rfl
      | cons c rest => simp [takeUpTo, hends (Nat.succ_pos n) c rfl]
  | cons d ds ih =>
    rw [List.forall_mem_cons] at hall
    cases n with
    | zero => cases hlength
    | succ n =>
      rw [List.length_cons] at hlength hends
      rw [List.cons_append, takeUpTo, if_pos hall.1,
        ih hall.2 (by omega) fun hlt => hends (by omega)]

/-- Digits are taken from the start, no more than there may be, and only until one is missing. -/
theorem takeUpTo_spec (p : Char → Bool) (n : Nat) (s : List Char) :
    takeUpTo p n s ++ s.drop (takeUpTo p n s).length = s ∧ (takeUpTo p n s).length ≤ n ∧
      (∀ d ∈ takeUpTo p n s, p d = true) ∧ ((takeUpTo p n s).length < n →
        ∀ d ∈ (s.drop (takeUpTo p n s).length).head?, p d = false) := by
  fun_induction takeUpTo p n s with
  | case1 s => simp
  | case2 n => simp
  | case3 n c cs hc ih =>
    obtain ⟨hsplit,hlength,hall,hends⟩ := ih
    refine ⟨?_,by simpa using hlength,List.forall_mem_cons.mpr ⟨hc,hall⟩,by simpa using hends⟩
    rw [List.length_cons, List.drop_succ_cons, List.cons_append, hsplit]
  | case4 n c cs hc => simpa using hc

end Digits

section Steps

variable {d : Char} {ds rest : List Char}

private theorem simpleEscape?_of_letter {c : Char} (h : (d, c) ∈ escapeLetters) :
    simpleEscape? d = some [c] := by
  have hall : ∀ p ∈ escapeLetters, simpleEscape? p.1 = some [p.2] := by decide
  exact hall _ h

private theorem hexWidth?_of_letter {width : Nat} (h : (d, width) ∈ codeLetters) :
    hexWidth? d = some width ∧ simpleEscape? d = none ∧ isOctal d = false := by
  have hall : ∀ p ∈ codeLetters, hexWidth? p.1 = some p.2 ∧ simpleEscape? p.1 = none ∧
      isOctal p.1 = false := by decide
  exact hall _ h

private theorem letter_of_simpleEscape? {value : List Char} (h : simpleEscape? d = some value) :
    d = '\n' ∧ value = [] ∨ ∃ c, (d, c) ∈ escapeLetters ∧ value = [c] := by
  unfold simpleEscape? at h
  split at h <;> simp_all [escapeLetters]

private theorem letter_of_hexWidth? {width : Nat} (h : hexWidth? d = some width) :
    (d, width) ∈ codeLetters := by
  unfold hexWidth? at h
  split at h <;> simp_all [codeLetters]

private theorem hexWidth?_of_unknown (h : ∀ width, (d, width) ∉ codeLetters) :
    hexWidth? d = none :=
  Option.eq_none_iff_forall_ne_some.mpr fun width hwidth => h width (letter_of_hexWidth? hwidth)

private theorem simpleEscape?_octal (h : isOctal d = true) : simpleEscape? d = none := by
  unfold simpleEscape?
  split
  all_goals first | rfl | exact absurd h (by decide)

/-- An octal escape ends before its rest. -/
theorem decode_octal (hsome : ds ≠ []) (hfew : ds.length ≤ 3) (hdigits : ∀ d ∈ ds, isOctal d = true)
    (hends : ds.length < 3 → ∀ d ∈ rest.head?, isOctal d = false) :
    decode ('\\' :: ds ++ rest) = Char.ofNat (number 8 ds) :: decode rest := by
  have hvalid := isValidChar_octal hdigits hfew
  cases ds with
  | nil => exact absurd rfl hsome
  | cons d ds =>
    have hnumber : numberOf 8 (d :: ds) = number 8 (d :: ds) :=
      numberOf_eq fun c hc => isHex_of_isOctal (hdigits c hc)
    rw [List.forall_mem_cons] at hdigits
    rw [List.length_cons] at hfew hends
    have htake : takeUpTo isOctal 2 (ds ++ rest) = ds :=
      takeUpTo_append hdigits.2 (by omega) fun hlt => hends (by omega)
    rw [List.cons_append, List.cons_append, decode.eq_def]
    simp [simpleEscape?_octal hdigits.1, hdigits.1, htake, hnumber, scalar?_eq hvalid]

/-- The escapes of code points end before their rest. -/
theorem decode_code {width : Nat} (hknown : (d, width) ∈ codeLetters) (hfew : ds.length ≤ width)
    (hdigits : ∀ c ∈ ds, isHex c = true)
    (hends : ds.length < width → ∀ c ∈ rest.head?, isHex c = false) :
    decode ('\\' :: d :: ds ++ rest) = hexEscape d width ds ++ decode rest := by
  obtain ⟨hwidth,hletter,hoctal⟩ := hexWidth?_of_letter hknown
  have htake : takeUpTo isHex width (ds ++ rest) = ds := takeUpTo_append hdigits hfew hends
  rw [List.cons_append, List.cons_append, decode.eq_def]
  simp [hletter, hoctal, hwidth, htake]

theorem hexEscape_full (hdigits : ∀ c ∈ ds, isHex c = true) (d : Char) :
    hexEscape d ds.length ds =
      if (number 16 ds).isValidChar then [Char.ofNat (number 16 ds)] else '\\' :: d :: ds := by
  rw [hexEscape, if_pos rfl, numberOf_eq hdigits]
  split
  · next hvalid => rw [scalar?_eq hvalid]; rfl
  · next hvalid => rw [scalar?, dif_neg hvalid]; rfl

theorem decode_letter {d : Char} {value : List Char} (h : simpleEscape? d = some value)
    (rest : List Char) : decode ('\\' :: d :: rest) = value ++ decode rest := by
  rw [decode.eq_def]
  simp [h]

/-- A piece is decoded to what it stands for, and its rest by itself. -/
theorem decode_piece {text value : List Char} (h : Piece text value rest) :
    decode (text ++ rest) = value ++ decode rest := by
  cases h with
  | plain _ char =>
    rw [List.singleton_append, decode.eq_def]
    simp [char]
  | letter _ known => exact decode_letter (simpleEscape?_of_letter known) rest
  | lineEnd => exact decode_letter rfl rest
  | octal some few digits ends => exact decode_octal some few digits ends
  | scalar _ full digits valid =>
    rw [decode_code full (Nat.le_refl _) digits (by omega), hexEscape_full digits, if_pos valid]
  | noScalar _ full digits invalid =>
    rw [decode_code full (Nat.le_refl _) digits (by omega), hexEscape_full digits,
      if_neg invalid]
  | short known few digits ends =>
    rw [decode_code known (Nat.le_of_lt few) digits fun _ => ends, hexEscape, if_neg (by omega)]
  | @other d _ lineEnd octal letter code =>
    have hletter : simpleEscape? d = none := by
      refine Option.eq_none_iff_forall_ne_some.mpr fun value hvalue => ?_
      rcases letter_of_simpleEscape? hvalue with ⟨hline,-⟩ | ⟨c,hc,-⟩
      · exact lineEnd hline
      · exact letter c hc
    rw [List.cons_append, List.singleton_append, decode.eq_def]
    simp [hletter, octal, hexWidth?_of_unknown code]
  | lone =>
    rw [List.append_nil, decode.eq_def]
    simp [decode]

/-- Pieces are decoded to what they stand for. -/
theorem decode_pieces {ps : List (List Char × List Char)} (h : Pieces ps) :
    decode (ps.flatMap (·.1)) = ps.flatMap (·.2) := by
  induction ps with
  | nil => rw [List.flatMap_nil, List.flatMap_nil, decode]
  | cons p ps ih =>
    rw [Pieces] at h
    rw [List.flatMap_cons, List.flatMap_cons, decode_piece h.1, ih h.2]

end Steps

section Splitting

variable {text value rest : List Char}

theorem exists_pieces_cons (h : Piece text value rest)
    (hrest : ∃ ps, Pieces ps ∧ ps.flatMap (·.1) = rest) :
    ∃ ps, Pieces ps ∧ ps.flatMap (·.1) = text ++ rest := by
  obtain ⟨ps,hps,rfl⟩ := hrest
  exact ⟨(text, value) :: ps,⟨h,hps⟩,rfl⟩

/-- Every body falls into pieces. -/
theorem exists_pieces (s : List Char) : ∃ ps, Pieces ps ∧ ps.flatMap (·.1) = s := by
  -- What the decoder takes in one step is one piece, so the pieces follow its recursion.
  fun_induction decode s with
  | case1 => exact ⟨[],trivial,rfl⟩
  | case2 c rest hc ih => exact exists_pieces_cons (.plain rest hc) ih
  | case3 c hc =>
    obtain rfl : c = '\\' := by simpa using hc
    exact exists_pieces_cons .lone ⟨[],trivial,rfl⟩
  | case4 c hc d tail value hvalue ih =>
    obtain rfl : c = '\\' := by simpa using hc
    rcases letter_of_simpleEscape? hvalue with ⟨rfl,-⟩ | ⟨e,he,-⟩
    · exact exists_pieces_cons (.lineEnd tail) ih
    · exact exists_pieces_cons (.letter tail he) ih
  | case5 c hc d tail hletter hoctal ds ih =>
    obtain rfl : c = '\\' := by simpa using hc
    obtain ⟨hsplit,hlength,hdigits,hends⟩ := takeUpTo_spec isOctal 2 tail
    have hpiece : Piece ('\\' :: ds) [Char.ofNat (number 8 ds)] (tail.drop (ds.length - 1)) :=
      .octal (List.cons_ne_nil _ _) (Nat.succ_le_succ hlength)
        (List.forall_mem_cons.mpr ⟨hoctal,hdigits⟩) fun hlt => hends (Nat.lt_of_succ_lt_succ hlt)
    have hps := exists_pieces_cons hpiece ih
    rwa [show '\\' :: ds ++ tail.drop (ds.length - 1) = '\\' :: d :: tail from
      congrArg ('\\' :: d :: ·) hsplit] at hps
  | case6 c hc d tail hletter hoctal width hwidth ds ih =>
    obtain rfl : c = '\\' := by simpa using hc
    obtain ⟨hsplit,hlength,hdigits,hends⟩ := takeUpTo_spec isHex width tail
    have hknown := letter_of_hexWidth? hwidth
    have hpiece : ∃ value, Piece ('\\' :: d :: ds) value (tail.drop ds.length) := by
      by_cases hfull : ds.length = width
      · rw [← hfull] at hknown
        by_cases hvalid : (number 16 ds).isValidChar
        · exact ⟨_,.scalar _ hknown hdigits hvalid⟩
        · exact ⟨_,.noScalar _ hknown hdigits hvalid⟩
      · have hfew : ds.length < width := Nat.lt_of_le_of_ne hlength hfull
        exact ⟨_,.short hknown hfew hdigits (hends hfew)⟩
    obtain ⟨value,hpiece⟩ := hpiece
    have hps := exists_pieces_cons hpiece ih
    rwa [List.cons_append, List.cons_append, hsplit] at hps
  | case7 c hc d tail hletter hoctal hwidth ih =>
    obtain rfl : c = '\\' := by simpa using hc
    refine exists_pieces_cons (.other tail ?_ (by simpa using hoctal) ?_ ?_) ih
    · rintro rfl
      cases hletter
    · intro e he
      rw [simpleEscape?_of_letter he] at hletter
      cases hletter
    · intro width hknown
      rw [(hexWidth?_of_letter hknown).1] at hwidth
      cases hwidth

private def pieceLength : List Char → Nat
  | '\\' :: d :: tail =>
    if isOctal d then (takeUpTo isOctal 2 tail).length + 2
    else match hexWidth? d with
      | some width => (takeUpTo isHex width tail).length + 2
      | none => 2
  | _ => 1

private theorem pieceLength_code {d : Char} {ds : List Char} {width : Nat}
    (hknown : (d, width) ∈ codeLetters) (hfew : ds.length ≤ width)
    (hdigits : ∀ c ∈ ds, isHex c = true)
    (hends : ds.length < width → ∀ c ∈ rest.head?, isHex c = false) :
    pieceLength ('\\' :: d :: ds ++ rest) = ('\\' :: d :: ds).length := by
  obtain ⟨hwidth,-,hoctal⟩ := hexWidth?_of_letter hknown
  simp [pieceLength, hoctal, hwidth, takeUpTo_append hdigits hfew hends]

private theorem pieceLength_eq (h : Piece text value rest) :
    pieceLength (text ++ rest) = text.length := by
  cases h with
  | plain _ char => simp [pieceLength, char]
  | @letter d c _ known =>
    have hall : ∀ p ∈ escapeLetters, isOctal p.1 = false ∧ hexWidth? p.1 = none := by decide
    obtain ⟨hoctal,hwidth⟩ := hall _ known
    simp [pieceLength, hoctal, hwidth]
  | lineEnd => rfl
  | @octal ds _ some few digits ends =>
    cases ds with
    | nil => exact absurd rfl some
    | cons d ds =>
      rw [List.forall_mem_cons] at digits
      rw [List.length_cons] at few ends
      have htake : takeUpTo isOctal 2 (ds ++ rest) = ds :=
        takeUpTo_append digits.2 (by omega) fun hlt => ends (by omega)
      simp [pieceLength, digits.1, htake]
  | scalar _ full digits _ => exact pieceLength_code full (Nat.le_refl _) digits (by omega)
  | noScalar _ full digits _ => exact pieceLength_code full (Nat.le_refl _) digits (by omega)
  | short known few digits ends =>
    exact pieceLength_code known (Nat.le_of_lt few) digits fun _ => ends
  | other _ _ octal _ code => simp [pieceLength, octal, hexWidth?_of_unknown code]
  | lone => rfl

/-- A body begins with one piece only. -/
theorem Piece.unique {text' value' rest' : List Char} (h : Piece text value rest)
    (h' : Piece text' value' rest') (heq : text ++ rest = text' ++ rest') :
    text = text' ∧ value = value' ∧ rest = rest' := by
  -- The length of a first piece can be told from the body, and its value from the decoded body.
  have hlength : text.length = text'.length := by
    rw [← pieceLength_eq h, ← pieceLength_eq h', heq]
  obtain ⟨rfl,rfl⟩ := List.append_inj heq hlength
  have hvalue := decode_piece h
  rw [decode_piece h', List.append_cancel_right_eq] at hvalue
  exact ⟨rfl,hvalue.symm,rfl⟩

theorem Piece.ne_nil (h : Piece text value rest) : text ≠ [] := by
  cases h <;> exact List.cons_ne_nil _ _

/-- A body falls into pieces in one way only. -/
theorem pieces_unique {ps qs : List (List Char × List Char)} (hps : Pieces ps) (hqs : Pieces qs)
    (heq : ps.flatMap (·.1) = qs.flatMap (·.1)) : ps = qs := by
  induction ps generalizing qs with
  | nil =>
    cases qs with
    | nil => rfl
    | cons q qs => exact absurd (List.append_eq_nil_iff.mp heq.symm).1 hqs.1.ne_nil
  | cons p ps ih =>
    cases qs with
    | nil => exact absurd (List.append_eq_nil_iff.mp heq).1 hps.1.ne_nil
    | cons q qs =>
      obtain ⟨htext,hvalue,hrest⟩ := hps.1.unique hqs.1 heq
      rw [ih hps.2 hqs.2 hrest]
      exact congrArg (· :: qs) (Prod.ext htext hvalue)

end Splitting

/-- Decoding goes piece by piece. A piece is decoded to what it stands for and leaves what comes
after it alone, so a body is decoded to what all its pieces stand for; and every body falls into
pieces in exactly one way. -/
theorem decode_goes_by_pieces :
    (∀ text value rest, Piece text value rest → decode (text ++ rest) = value ++ decode rest) ∧
    (∀ ps, Pieces ps → decode (ps.flatMap (·.1)) = ps.flatMap (·.2)) ∧
    ∀ s, ∃! ps, Pieces ps ∧ ps.flatMap (·.1) = s := by
  refine ⟨fun _ _ _ => decode_piece,fun _ => decode_pieces,fun s => ?_⟩
  obtain ⟨ps,hps,htext⟩ := exists_pieces s
  exact ⟨ps,⟨hps,htext⟩,fun qs hqs => pieces_unique hqs.1 hps (hqs.2.trans htext.symm)⟩

end DocSnapshot.Python.StringLiteral
