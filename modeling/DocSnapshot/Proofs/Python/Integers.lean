import Mathlib
import DocSnapshot.Python.Literal
import DocSnapshot.Proofs.Python.Escapes

/-! Integers. A number below 2 ^ 128 has one literal, whatever its base and spelling; a greater one
keeps its base and its digits. -/
namespace DocSnapshot.Python.Literal
open StringLiteral (digit numberOf digitValue isHex digitValue_eq numberOf_eq numberOf_toDigits)
open StringLiteral renaming number → valueIn

def baseLetters : List (Char × Nat) :=
  [('x', 16), ('X', 16), ('o', 8), ('O', 8), ('b', 2), ('B', 2)]

/-- Digits of a base in groups, with one underscore between two of them. -/
def Grouped (base : Nat) (text digits : List Char) : Prop :=
  ∃ groups : List (List Char), groups ≠ [] ∧
    (∀ group ∈ groups, group ≠ [] ∧ ∀ c ∈ group, digit c < base) ∧
    text = List.intercalate ['_'] groups ∧ digits = groups.flatten

/-- An integer token: what announces its base, its digits, and its base. One underscore may come
before the digits of an announced base or behind the digits of a decimal, and the mark of a long
integer at the end. -/
inductive IntegerToken : (text front digits : List Char) → (base : Nat) → Prop where
  | based {letter : Char} {base : Nat} {gap text digits suffix : List Char}
      (known : (letter, base) ∈ baseLetters) (single : gap = [] ∨ gap = ['_'])
      (grouped : Grouped base text digits) (long : suffix ∈ [[], ['l'], ['L']]) :
      IntegerToken ('0' :: letter :: gap ++ text ++ suffix) ['0', letter] digits base
  | decimal {gap text digits suffix : List Char} (grouped : Grouped 10 text digits)
      (single : gap = [] ∨ gap = ['_']) (long : suffix ∈ [[], ['l'], ['L']]) :
      IntegerToken (text ++ gap ++ suffix) [] digits 10

section Digits

variable {c : Char} {base : Nat} {digits : List Char}

theorem digit_toLower (c : Char) : digit c.toLower = digit c :=
  congrArg "0123456789abcdef".toList.idxOf (Char.toLower_toLower_eq_toLower c)

private theorem isHex_toLower (h : digit c < 16) : isHex c.toLower = true := by
  have hmem : c.toLower ∈ "0123456789abcdef".toList := List.idxOf_lt_length_iff.mp h
  have hall : "0123456789abcdef".toList.all isHex = true := by decide
  exact List.all_eq_true.mp hall _ hmem

/-- Digits keep their number in lower case. -/
theorem valueIn_toLower (base : Nat) (digits : List Char) :
    valueIn base (digits.map Char.toLower) = valueIn base digits := by
  have hdigit : digit ∘ Char.toLower = digit := funext digit_toLower
  rw [valueIn, valueIn, List.map_map, hdigit]

theorem numberOf_toLower (h : ∀ c ∈ digits, digit c < 16) :
    numberOf base (digits.map Char.toLower) = valueIn base digits := by
  rw [numberOf_eq, valueIn_toLower]
  intro d hd
  obtain ⟨c,hc,rfl⟩ := List.mem_map.mp hd
  exact isHex_toLower (h c hc)

theorem isDigitIn_toLower (hbase : base ≤ 16) (h : ∀ c ∈ digits, digit c < base) :
    (digits.map Char.toLower).all (isDigitIn base) = true := by
  rw [List.all_map, List.all_eq_true]
  intro c hc
  have hhex := isHex_toLower (Nat.lt_of_lt_of_le (h c hc) hbase)
  simp [isDigitIn, hhex, digitValue_eq hhex, digit_toLower, h c hc]

private theorem digit_of_isDigit (h : c.isDigit = true) : digit c < 10 := by
  have hhex : isHex c = true := by simp [isHex, h]
  rw [← digitValue_eq hhex, digitValue, if_pos h]
  simp [Char.isDigit, UInt32.le_iff_toNat_le] at h
  simp
  omega

end Digits

section Tokens

variable {text front digits suffix : List Char} {base : Nat}

private theorem not_mem_of_digit_lt {c : Char} (h : digit c < 16) :
    c ∉ ['_', 'l', 'L', 'j', 'J'] := by
  have hall : ['_', 'l', 'L', 'j', 'J'].all (16 ≤ digit ·) = true := by decide
  intro hmem
  have hle : 16 ≤ digit c := by simpa using List.all_eq_true.mp hall c hmem
  omega

/-- Groups of digits between underscores, as far as they can be checked. -/
theorem grouped_of_all (groups : List (List Char)) (hne : groups ≠ [])
    (h : groups.all (fun group => !group.isEmpty && group.all (digit · < base)) = true) :
    Grouped base (List.intercalate ['_'] groups) groups.flatten := by
  refine ⟨groups,hne,?_,rfl,rfl⟩
  simpa [List.all_eq_true, List.isEmpty_iff] using h

theorem Grouped.ne_nil (h : Grouped base text digits) : digits ≠ [] := by
  obtain ⟨groups,hne,hgroups,-,rfl⟩ := h
  obtain ⟨group,hgroup⟩ := List.exists_mem_of_ne_nil groups hne
  intro hnil
  exact (hgroups group hgroup).1 (List.flatten_eq_nil_iff.mp hnil group hgroup)

theorem Grouped.digit_lt (h : Grouped base text digits) : ∀ c ∈ digits, digit c < base := by
  obtain ⟨groups,-,hgroups,-,rfl⟩ := h
  intro c hc
  obtain ⟨group,hgroup,hmem⟩ := List.mem_flatten.mp hc
  exact (hgroups group hgroup).2 c hmem

/-- Groups of digits without the underscores between them are the digits. -/
theorem Grouped.filter_eq (h : Grouped base text digits) (hbase : base ≤ 16) :
    text.filter (· ≠ '_') = digits := by
  obtain ⟨groups,-,hgroups,rfl,rfl⟩ := h
  have hself (group : List Char) (hgroup : group ∈ groups) : group.filter (· ≠ '_') = group := by
    refine List.filter_eq_self.mpr fun c hc => ?_
    have hnot := not_mem_of_digit_lt (Nat.lt_of_lt_of_le ((hgroups group hgroup).2 c hc) hbase)
    simp only [List.mem_cons, not_or] at hnot
    simpa using hnot.1
  clear hgroups
  induction groups with
  | nil => rfl
  | cons group groups ih =>
    rw [List.forall_mem_cons] at hself
    cases groups with
    | nil => simpa using hself.1
    | cons next groups =>
      rw [List.intercalate_cons_cons, List.filter_append, List.filter_append, hself.1, ih hself.2]
      simp

/-- A token without underscores is its digits, with what announces their base in front and the mark
of a long integer behind. -/
theorem IntegerToken.filter_eq (h : IntegerToken text front digits base) :
    ∃ suffix ∈ [[], ['l'], ['L']], text.filter (· ≠ '_') = front ++ digits ++ suffix := by
  have hgap (gap : List Char) (hgap : gap = [] ∨ gap = ['_']) : gap.filter (· ≠ '_') = [] := by
    rcases hgap with rfl | rfl <;> rfl
  have hlong : ∀ suffix ∈ [[], ['l'], ['L']], suffix.filter (· ≠ '_') = suffix := by decide
  cases h with
  | @based letter base gap text digits suffix known single grouped long =>
    have hletters : ∀ p ∈ baseLetters, p.2 ≤ 16 ∧ ['0', p.1].filter (· ≠ '_') = ['0', p.1] := by
      decide
    obtain ⟨hbase,hfront⟩ := hletters _ known
    refine ⟨suffix,long,?_⟩
    have hparts : '0' :: letter :: gap ++ text ++ suffix =
        ['0', letter] ++ gap ++ text ++ suffix := rfl
    rw [hparts, List.filter_append, List.filter_append, List.filter_append, hfront,
      hgap gap single, grouped.filter_eq hbase, hlong suffix long, List.append_nil]
  | @decimal gap text digits suffix grouped single long =>
    refine ⟨suffix,long,?_⟩
    rw [List.filter_append, List.filter_append, grouped.filter_eq (by decide), hgap gap single,
      hlong suffix long, List.append_nil, List.nil_append]

private theorem baseOf_decimal (h : ∀ c ∈ digits, digit c < 10) :
    baseOf (digits.map Char.toLower) = (10, digits.map Char.toLower) := by
  have hletters : ['x', 'o', 'b'].all (10 ≤ digit ·) = true := by decide
  have hnot (d : Char) (hd : d ∈ ['x', 'o', 'b']) : d ∉ digits.map Char.toLower := by
    intro hmem
    obtain ⟨c,hc,rfl⟩ := List.mem_map.mp hmem
    have hle : 10 ≤ digit c.toLower := by simpa using List.all_eq_true.mp hletters _ hd
    rw [digit_toLower] at hle
    exact absurd (h c hc) (by omega)
  rw [baseOf.eq_def]
  split
  · next heq => exact absurd (by simp [heq]) (hnot 'x' (by simp))
  · next heq => exact absurd (by simp [heq]) (hnot 'o' (by simp))
  · next heq => exact absurd (by simp [heq]) (hnot 'b' (by simp))
  · rfl

/-- The base of a token is told by what announces it. -/
theorem IntegerToken.baseOf_eq (h : IntegerToken text front digits base) :
    baseOf ((front ++ digits).map Char.toLower) = (base, digits.map Char.toLower) := by
  cases h with
  | @based letter base gap text digits suffix known single grouped long =>
    rw [List.map_append]
    simp only [baseLetters, List.mem_cons, Prod.mk.injEq, List.not_mem_nil, or_false] at known
    rcases known with ⟨rfl,rfl⟩ | ⟨rfl,rfl⟩ | ⟨rfl,rfl⟩ | ⟨rfl,rfl⟩ | ⟨rfl,rfl⟩ | ⟨rfl,rfl⟩ <;> rfl
  | @decimal gap text digits suffix grouped single long => exact baseOf_decimal grouped.digit_lt

theorem IntegerToken.grouped (h : IntegerToken text front digits base) :
    base ≤ 16 ∧ digits ≠ [] ∧ ∀ c ∈ digits, digit c < base := by
  cases h with
  | based known _ grouped _ =>
    have hletters : ∀ p ∈ baseLetters, p.2 ≤ 16 := by decide
    exact ⟨hletters _ known,grouped.ne_nil,grouped.digit_lt⟩
  | decimal grouped _ _ => exact ⟨by decide,grouped.ne_nil,grouped.digit_lt⟩

/-- The value of a token in lower case. -/
theorem IntegerToken.integerValue?_eq (h : IntegerToken text front digits base) :
    integerValue? ((front ++ digits).map Char.toLower) =
      if valueIn base digits < 2 ^ 128 then some (valueIn base digits) else Option.none := by
  obtain ⟨hbase,hne,hdigits⟩ := h.grouped
  have hvalue : numberOf base (digits.map Char.toLower) = valueIn base digits :=
    numberOf_toLower fun c hc => Nat.lt_of_lt_of_le (hdigits c hc) hbase
  rw [integerValue?, h.baseOf_eq]
  simp [hvalue, hne, isDigitIn_toLower hbase hdigits]

private theorem drop_long (hne : digits ≠ []) (hdigits : ∀ c ∈ digits, digit c < 16)
    (hlong : suffix ∈ [[], ['l'], ['L']]) :
    ((front ++ digits ++ suffix).reverse.dropWhile fun c => c = 'l' || c = 'L').reverse =
      front ++ digits := by
  obtain ⟨ds,d,rfl⟩ := (List.eq_nil_or_concat' digits).resolve_left hne
  have hsuffix : ∀ suffix ∈ [[], ['l'], ['L']],
      suffix.reverse.all (fun c => c = 'l' || c = 'L') = true := by decide
  -- No digit of any base is a mark of a long integer, so the last one stops the cut.
  have hlast := not_mem_of_digit_lt (hdigits d (by simp))
  simp only [List.mem_cons, not_or] at hlast
  rw [List.reverse_append, List.dropWhile_append_of_pos (List.all_eq_true.mp (hsuffix suffix hlong)),
    ← List.append_assoc,
    List.reverse_append, List.reverse_singleton, List.singleton_append,
    List.dropWhile_cons_of_neg (by simp [hlast])]
  simp

private theorem isImaginary_eq_false (hne : digits ≠ []) (hdigits : ∀ c ∈ digits, digit c < 16)
    (hlong : suffix ∈ [[], ['l'], ['L']]) : isImaginary (front ++ digits ++ suffix) = false := by
  obtain ⟨ds,d,rfl⟩ := (List.eq_nil_or_concat' digits).resolve_left hne
  have hlast := not_mem_of_digit_lt (hdigits d (by simp))
  simp only [List.mem_cons, not_or] at hlast
  simp only [List.mem_cons, List.not_mem_nil, or_false] at hlong
  rcases hlong with rfl | rfl | rfl <;> simp [isImaginary, hlast]

/-- What a token is read as. -/
theorem IntegerToken.ofInteger_eq {text : String} (h : IntegerToken text.toList front digits base) :
    ofInteger text = .int (if valueIn base digits < 2 ^ 128 then toString (valueIn base digits)
      else String.ofList ((front ++ digits).map Char.toLower)) := by
  obtain ⟨hbase,hne,hdigits⟩ := h.grouped
  obtain ⟨suffix,hlong,hfilter⟩ := h.filter_eq
  have hhex : ∀ c ∈ digits, digit c < 16 := fun c hc => Nat.lt_of_lt_of_le (hdigits c hc) hbase
  rw [ofInteger, withoutUnderscores, hfilter]
  simp only [isImaginary_eq_false hne hhex hlong, drop_long hne hhex hlong, h.integerValue?_eq]
  rw [if_neg Bool.false_ne_true]
  by_cases hsmall : valueIn base digits < 2 ^ 128
  · rw [if_pos hsmall, if_pos hsmall, Nat.toString_eq_ofList_toDigits]
  · rw [if_neg hsmall, if_neg hsmall]

end Tokens

section Canonical

variable {text front digits : List Char} {base : Nat}

/-- Digits of a base make up one group. -/
theorem grouped_single (hne : digits ≠ []) (hdigits : ∀ c ∈ digits, digit c < base) :
    Grouped base digits digits :=
  ⟨[digits],by simp,by simpa using ⟨hne,hdigits⟩,by simp,by simp⟩

/-- Decimal notation is a token of its number. -/
theorem integerToken_toString (n : Nat) :
    IntegerToken (toString n).toList [] (Nat.toDigits 10 n) 10 ∧
      valueIn 10 (Nat.toDigits 10 n) = n := by
  have hdigits : ∀ c ∈ Nat.toDigits 10 n, c.isDigit = true := fun c hc =>
    Nat.isDigit_of_mem_toDigits (by decide) (by decide) hc
  have hgrouped := grouped_single Nat.toDigits_ne_nil fun c hc => digit_of_isDigit (hdigits c hc)
  have htoken := IntegerToken.decimal hgrouped (.inl rfl) (List.mem_cons_self)
  refine ⟨by simpa using htoken,?_⟩
  rw [← numberOf_eq, numberOf_toDigits]
  exact fun c hc => by simp [isHex, hdigits c hc]

/-- A token in lower case, without underscores and the mark of a long integer, is a token of the
same base and number. -/
theorem IntegerToken.lower (h : IntegerToken text front digits base) :
    IntegerToken ((front ++ digits).map Char.toLower) (front.map Char.toLower)
      (digits.map Char.toLower) base := by
  obtain ⟨-,hne,hdigits⟩ := h.grouped
  have hgrouped : Grouped base (digits.map Char.toLower) (digits.map Char.toLower) := by
    refine grouped_single (by simpa using hne) fun d hd => ?_
    obtain ⟨c,hc,rfl⟩ := List.mem_map.mp hd
    rw [digit_toLower]
    exact hdigits c hc
  cases h with
  | based known _ _ _ =>
    have hletters : ∀ p ∈ baseLetters, (p.1.toLower, p.2) ∈ baseLetters := by decide
    have htoken := IntegerToken.based (hletters _ known) (.inl rfl) hgrouped List.mem_cons_self
    simpa using htoken
  | decimal _ _ _ =>
    have htoken := IntegerToken.decimal hgrouped (.inl rfl) List.mem_cons_self
    simpa using htoken

end Canonical

/-- Integers keep their value. A token of a number below 2 ^ 128 becomes its decimal notation, so
that all tokens of the number become one literal; a token of a greater number becomes its digits
behind what announces their base, in lower case, and is a token of the same base and number
still. What a token becomes stays as it is. -/
theorem ofInteger_keeps_value {text : String} {front digits : List Char} {base : Nat}
    (h : IntegerToken text.toList front digits base) :
    (valueIn base digits < 2 ^ 128 →
      ofInteger text = .int (toString (valueIn base digits)) ∧
      ofInteger (toString (valueIn base digits)) = .int (toString (valueIn base digits)) ∧
      ∀ (text' : String) (front' digits' : List Char) (base' : Nat),
        IntegerToken text'.toList front' digits' base' →
          valueIn base' digits' = valueIn base digits → ofInteger text' = ofInteger text) ∧
    (2 ^ 128 ≤ valueIn base digits → ∃ d : String, d.toList = (front ++ digits).map Char.toLower ∧
      ofInteger text = .int d ∧ ofInteger d = .int d ∧
      IntegerToken d.toList (front.map Char.toLower) (digits.map Char.toLower) base ∧
      valueIn base (digits.map Char.toLower) = valueIn base digits) := by
  refine ⟨fun hsmall => ⟨?_,?_,?_⟩,fun hlarge => ?_⟩
  · rw [h.ofInteger_eq, if_pos hsmall]
  · obtain ⟨htoken,hnumber⟩ := integerToken_toString (valueIn base digits)
    rw [htoken.ofInteger_eq, hnumber, if_pos hsmall]
  · intro text' front' digits' base' htoken hnumber
    rw [h.ofInteger_eq, htoken.ofInteger_eq, hnumber, if_pos hsmall, if_pos hsmall]
  · have hnot : ¬valueIn base digits < 2 ^ 128 := Nat.not_lt.mpr hlarge
    obtain ⟨d,hd⟩ : ∃ d : String, d.toList = (front ++ digits).map Char.toLower :=
      ⟨_,String.toList_ofList⟩
    have htoken := h.lower
    rw [← hd] at htoken
    have hlower : (front.map Char.toLower ++ digits.map Char.toLower).map Char.toLower =
        d.toList := by
      rw [← List.map_append, List.map_map, hd]
      exact List.map_congr_left fun c _ => c.toLower_toLower_eq_toLower
    refine ⟨d,hd,?_,?_,htoken,valueIn_toLower base digits⟩
    · rw [h.ofInteger_eq, if_neg hnot, ← hd, String.ofList_toList]
    · rw [htoken.ofInteger_eq, valueIn_toLower, if_neg hnot, hlower, String.ofList_toList]

/-- A long hexadecimal integer in groups, and 2 ^ 128 in groups. -/
theorem ofInteger_keeps_value_grouped :
    ofInteger "0X_fF_0L" = .int "4080" ∧ ofInteger "340_282366920938463463374607431768211456" =
      .int "340282366920938463463374607431768211456" := by
  have hsmall : IntegerToken "0X_fF_0L".toList ['0', 'X'] ['f', 'F', '0'] 16 :=
    .based (by decide) (show ['_'] = [] ∨ ['_'] = ['_'] from .inr rfl)
      (grouped_of_all [['f', 'F'], ['0']] (by decide) (by decide)) (show ['L'] ∈ _ by decide)
  have hgroups : Grouped 10 "340_282366920938463463374607431768211456".toList
      "340282366920938463463374607431768211456".toList :=
    grouped_of_all ["340".toList, "282366920938463463374607431768211456".toList] (by decide)
      (by decide)
  have hlarge : IntegerToken "340_282366920938463463374607431768211456".toList []
      "340282366920938463463374607431768211456".toList 10 := by
    simpa using IntegerToken.decimal hgroups (.inl rfl) List.mem_cons_self
  have hvalue : valueIn 16 ['f', 'F', '0'] = 4080 := by decide
  constructor
  · have hread := ((ofInteger_keeps_value hsmall).1 (by rw [hvalue]; decide)).1
    rw [hread, hvalue]
    rfl
  · obtain ⟨d,hd,hread,-⟩ := (ofInteger_keeps_value hlarge).2 (by decide +kernel)
    have hdigits : d = "340282366920938463463374607431768211456" :=
      String.toList_inj.mp (hd.trans (by decide))
    rw [hread, hdigits]

end DocSnapshot.Python.Literal
