import DocSnapshot.Json.Reader
import DocSnapshot.Proofs.Python.Escapes
import Mathlib.Data.List.Basic

/-! What the readers of JSON values take off a text. A reader of a value skips the blanks in front
of it, takes the text the value is written as, and leaves what follows it. Strings are read back
character by character, and numbers by their digits. -/
namespace DocSnapshot.Json.Reader

variable {α β : Type}

/-- A reader takes a text in front of another, wherever it stands. -/
def Takes (r : Reader α) (cs rest : List Char) (a : α) : Prop :=
  ∀ mark, ∃ after, r ⟨cs ++ rest, mark⟩ = .ok (a, ⟨rest, after⟩)

section Takes
variable {r : Reader α} {f : α → Reader β} {cs ds rest : List Char} {a : α} {b : β}

theorem takes_pure (a : α) (rest : List Char) : Takes (pure a) [] rest a :=
  fun mark => ⟨mark,rfl⟩

theorem Takes.bind (hr : Takes r cs (ds ++ rest) a) (hf : Takes (f a) ds rest b) :
    Takes (r >>= f) (cs ++ ds) rest b := by
  intro mark
  obtain ⟨middle,hr⟩ := hr mark
  obtain ⟨after,hf⟩ := hf middle
  refine ⟨after,?_⟩
  rw [List.append_assoc]
  simp only [Bind.bind, StateT.bind, Except.bind, hr, hf]

/-- A step that only looks at the input. -/
theorem Takes.look (hr : Takes r [] (ds ++ rest) a) (hf : Takes (f a) ds rest b) :
    Takes (r >>= f) ds rest b :=
  hr.bind hf

/-- A last step that takes nothing. -/
theorem Takes.last (hr : Takes r cs rest a) (hf : Takes (f a) [] rest b) :
    Takes (r >>= f) cs rest b := by
  have h := Takes.bind (f := f) (by simpa using hr) hf
  rwa [List.append_nil] at h

theorem takes_peek (rest : List Char) : Takes peek [] rest rest.head? :=
  fun mark => ⟨mark,rfl⟩

theorem takes_bump (c : Char) (rest : List Char) : Takes bump [c] rest () :=
  fun _ => ⟨_,rfl⟩

theorem takes_remaining (rest : List Char) : Takes remaining [] rest (rest.length + 1) :=
  fun mark => ⟨mark,rfl⟩

theorem takes_word (cs rest : List Char) : Takes (word cs) cs rest () := by
  induction cs with
  | nil => exact takes_pure () rest
  | cons c cs ih =>
    refine (takes_peek (c :: cs ++ rest)).look ?_
    simp only [List.cons_append, List.head?_cons, if_true]
    exact (takes_bump c (cs ++ rest)).bind ih

end Takes

def Blank (cs : List Char) : Prop := ∀ c ∈ cs, isSpace c = true

def NoBlankFirst (cs : List Char) : Prop := ∀ c ∈ cs.head?, isSpace c = false

theorem blank_nil : Blank [] := by simp [Blank]

theorem noBlankFirst_cons {c : Char} {cs : List Char} (h : isSpace c = false) :
    NoBlankFirst (c :: cs) := by
  simpa [NoBlankFirst] using h

theorem takes_skipSpace {blanks rest : List Char} (hb : Blank blanks) (hr : NoBlankFirst rest) :
    Takes skipSpace blanks rest () := by
  intro mark
  have hdrop : (blanks ++ rest).dropWhile isSpace = rest := by
    rw [List.dropWhile_append_of_pos hb]
    cases rest with
    | nil => rfl
    | cons c cs => simp [hr c rfl]
  refine ⟨Input.stepAll mark ((blanks ++ rest).takeWhile isSpace),?_⟩
  simp only [skipSpace, hdrop]

theorem takes_peekValue {blanks rest : List Char} (hb : Blank blanks) (hr : NoBlankFirst rest) :
    Takes peekValue blanks rest rest.head? :=
  (takes_skipSpace hb hr).last (takes_peek rest)

theorem takes_startOfValue {blanks rest : List Char} {c : Char} (hb : Blank blanks)
    (hc : isSpace c = false) : Takes startOfValue blanks (c :: rest) c := by
  exact (takes_peekValue hb (noBlankFirst_cons hc)).last (takes_pure c _)

theorem takes_colon (rest : List Char) : Takes colon [':'] rest () := by
  refine (takes_peekValue blank_nil (noBlankFirst_cons rfl)).look ?_
  exact takes_bump ':' rest

theorem takes_enter {depth : Depth} (h : 1 < depth) (c : Char) (rest : List Char) :
    Takes (enter depth) [c] rest (depth - 1) := by
  rw [enter, if_neg (Nat.not_le.mpr h)]
  exact (takes_bump c rest).last (takes_pure _ rest)

section Strings
variable {cs rest : List Char} {n : Nat}

private theorem fourHex?_append (rest : List Char) (h : fourHex? cs = some (n, [])) :
    fourHex? (cs ++ rest) = some (n, rest) := by
  unfold fourHex? at h
  split at h
  · simp only [Option.bind_eq_bind, Option.bind_eq_some_iff, Option.some.injEq, Prod.mk.injEq] at h
    obtain ⟨a,ha,b,hb,c,hc,d,hd,hn,rfl⟩ := h
    simp [fourHex?, ha, hb, hc, hd, hn]
  · simp at h

private theorem fourHex?_hexDigits : ∀ n < 32, fourHex? (Text.hexDigits 4 n) = some (n, []) := by
  decide

private theorem stringBody_short {d e : Char} (mark : Mark) (h : shortEscape? d = some e) :
    stringBody mark ('\\' :: d :: rest) =
      (stringBody (columns mark 2) rest).map fun (s, i) => (e :: s, i) := by
  have hd : d ≠ 'u' := by
    rintro rfl
    simp [shortEscape?] at h
  rw [stringBody.eq_def]
  simp [hd, h]

private theorem stringBody_unicode {c : Char} (mark : Mark)
    (hn : fourHex? cs = some (c.toNat, rest)) (hc : c.toNat < 32) :
    stringBody mark ('\\' :: 'u' :: cs) =
      (stringBody (columns (columns mark 2) 4) rest).map fun (s, i) => (c :: s, i) := by
  have hescape : unicodeEscape (columns mark 2) cs = .ok (c, rest, columns (columns mark 2) 4) := by
    simp only [unicodeEscape, hn]
    rw [if_neg (by omega), if_neg (by omega), Char.ofNat_toNat]
  rw [stringBody.eq_def]
  simp only [Char.reduceEq, if_false, if_true]
  split
  · next h => simp [hescape] at h
  · next h =>
    rw [hescape] at h
    simp only [Except.ok.injEq, Prod.mk.injEq] at h
    obtain ⟨rfl,rfl,rfl⟩ := h
    rfl

private theorem stringBody_plain {c : Char} (mark : Mark) (hquote : c ≠ '"') (hslash : c ≠ '\\')
    (hc : ¬c < ' ') : stringBody mark (c :: rest) =
      (stringBody (Input.step mark c) rest).map fun (s, i) => (c :: s, i) := by
  rw [stringBody.eq_def]
  simp [hquote, hslash, hc]

private theorem escapeChar_cases (c : Char) :
    (∃ d, shortEscape? d = some c ∧ escapeChar c = ['\\', d]) ∨
      c.toNat < 32 ∧ escapeChar c = '\\' :: 'u' :: Text.hexDigits 4 c.toNat ∨
      c ≠ '"' ∧ c ≠ '\\' ∧ ¬c < ' ' ∧ escapeChar c = [c] := by
  have hshort : ∀ d e, shortEscape? d = some e → escapeChar e = ['\\', d] → c = e →
      ∃ d, shortEscape? d = some c ∧ escapeChar c = ['\\', d] := by
    rintro d e hd he rfl
    exact ⟨d,hd,he⟩
  by_cases hquote : c = '"'
  · exact .inl (hshort '"' '"' rfl rfl hquote)
  by_cases hslash : c = '\\'
  · exact .inl (hshort '\\' '\\' rfl rfl hslash)
  by_cases hback : c = '\x08'
  · exact .inl (hshort 'b' '\x08' rfl rfl hback)
  by_cases hfeed : c = '\x0c'
  · exact .inl (hshort 'f' '\x0c' rfl rfl hfeed)
  by_cases hline : c = '\n'
  · exact .inl (hshort 'n' '\n' rfl rfl hline)
  by_cases hreturn : c = '\r'
  · exact .inl (hshort 'r' '\r' rfl rfl hreturn)
  by_cases htab : c = '\t'
  · exact .inl (hshort 't' '\t' rfl rfl htab)
  by_cases hcontrol : c < ' '
  · refine .inr (.inl ⟨hcontrol,?_⟩)
    simp [escapeChar, hquote, hslash, hback, hfeed, hline, hreturn, htab, hcontrol]
  · refine .inr (.inr ⟨hquote,hslash,hcontrol,?_⟩)
    simp [escapeChar, hquote, hslash, hback, hfeed, hline, hreturn, htab, hcontrol]

private theorem stringBody_escapeChar (c : Char) (mark : Mark) (rest : List Char) :
    ∃ after, stringBody mark (escapeChar c ++ rest) =
      (stringBody after rest).map fun (s, i) => (c :: s, i) := by
  rcases escapeChar_cases c with ⟨d,hd,hc⟩ | ⟨hcontrol,hc⟩ | ⟨hquote,hslash,hcontrol,hc⟩
  · rw [hc]
    exact ⟨_,stringBody_short mark hd⟩
  · have hdigits := fourHex?_append rest (fourHex?_hexDigits _ hcontrol)
    rw [hc]
    exact ⟨_,stringBody_unicode mark hdigits hcontrol⟩
  · rw [hc]
    exact ⟨_,stringBody_plain mark hquote hslash hcontrol⟩

theorem takes_stringRest (s : String) (rest : List Char) :
    Takes stringRest (s.toList.flatMap escapeChar ++ ['"']) rest s := by
  suffices h : ∀ (cs : List Char) (mark : Mark), ∃ after,
      stringBody mark (cs.flatMap escapeChar ++ '"' :: rest) = .ok (cs, ⟨rest, after⟩) by
    intro mark
    obtain ⟨after,h⟩ := h s.toList mark
    refine ⟨after,?_⟩
    simp [stringRest, h, Except.map]
  intro cs
  induction cs with
  | nil =>
    intro mark
    refine ⟨columns mark 1,?_⟩
    rw [List.flatMap_nil, List.nil_append, stringBody.eq_def]
    simp
  | cons c cs ih =>
    intro mark
    obtain ⟨middle,hc⟩ := stringBody_escapeChar c mark (cs.flatMap escapeChar ++ '"' :: rest)
    obtain ⟨after,hcs⟩ := ih middle
    refine ⟨after,?_⟩
    rw [List.flatMap_cons, List.append_assoc, hc, hcs]
    rfl

end Strings

/-- What may stand behind a value: nothing, a comma, a closing bracket or a blank. -/
def Ends (rest : List Char) : Prop :=
  ∀ c ∈ rest.head?, c = ',' ∨ c = ']' ∨ c = '\x7d' ∨ isSpace c = true

section Numbers
variable {rest : List Char} {n : Nat}

private theorem Ends.head_ne (h : Ends rest) {c : Char} (hc : c ∈ ['.', 'e', 'E']) :
    rest.head? ≠ some c := by
  intro hhead
  have hend := h c hhead
  simp only [List.mem_cons, List.not_mem_nil, or_false] at hc
  rcases hc with rfl | rfl | rfl <;> simp [isSpace] at hend

private theorem Ends.not_digit (h : Ends rest) {c : Char} (hc : c ∈ rest.head?) :
    c.isDigit = false := by
  have hend := h c hc
  simp only [isSpace, Bool.or_eq_true, decide_eq_true_eq] at hend
  rcases hend with rfl | rfl | rfl | ((rfl | rfl) | rfl) | rfl <;> rfl

private theorem isDigit_toDigits : ∀ d ∈ Nat.toDigits 10 n, d.isDigit = true :=
  fun _ hd => Nat.isDigit_of_mem_toDigits (by decide) (by decide) hd

private theorem takes_digits {ds : List Char} (hds : ∀ d ∈ ds, d.isDigit = true) (h : Ends rest) :
    Takes digits ds rest ds := by
  intro mark
  have hsplit : (ds ++ rest).takeWhile Char.isDigit = ds ∧
      (ds ++ rest).dropWhile Char.isDigit = rest := by
    rw [List.takeWhile_append_of_pos hds, List.dropWhile_append_of_pos hds]
    cases rest with
    | nil => simp
    | cons c cs => simp [h.not_digit (c := c) rfl]
  refine ⟨columns mark ds.length,?_⟩
  simp only [digits, hsplit.1, hsplit.2]

private theorem toDigits_cons (hn : 0 < n) :
    ∃ d ds, Nat.toDigits 10 n = d :: ds ∧ d ≠ '0' := by
  induction n using Nat.strongRecOn with
  | ind n ih =>
    by_cases hlt : n < 10
    · have hfirst : ∀ d < 10, 0 < d → Nat.digitChar d ≠ '0' := by decide
      exact ⟨_,[],Nat.toDigits_of_lt_base hlt,hfirst n hlt hn⟩
    · obtain ⟨d,ds,hds,hd⟩ := ih (n / 10) (by omega) (by omega)
      refine ⟨d,ds ++ [(n % 10).digitChar],?_,hd⟩
      rw [Nat.toDigits_of_base_le (by decide) (by omega), hds, List.cons_append]

private theorem takes_wholeDigits (n : Nat) (h : Ends rest) :
    Takes wholeDigits (Nat.toDigits 10 n) rest (Nat.toDigits 10 n) := by
  rcases Nat.eq_zero_or_pos n with rfl | hn
  · have hnext : ¬rest.head?.any Char.isDigit = true := by
      rw [Option.any_eq_true]
      rintro ⟨c,hc,hdigit⟩
      exact absurd hdigit (by simp [h.not_digit hc])
    refine (takes_peek _).look ?_
    refine (takes_bump '0' rest).last ?_
    refine (takes_peek rest).look ?_
    rw [if_neg hnext]
    exact takes_pure _ rest
  · obtain ⟨d,ds,hds,hd⟩ := toDigits_cons hn
    have hdigits := isDigit_toDigits (n := n)
    have htakes := takes_digits hdigits h
    rw [hds] at hdigits htakes ⊢
    refine (takes_peek _).look ?_
    simp only [List.cons_append, List.head?_cons]
    rw [if_pos (hdigits d List.mem_cons_self)]
    exact htakes

theorem takes_number (hn : n < Nat.pow 2 64) (h : Ends rest) :
    Takes (number false) (renderInt n) rest (.int n) := by
  have hpoint := h.head_ne (c := '.') (by simp)
  have he := h.head_ne (c := 'e') (by simp)
  have hE := h.head_ne (c := 'E') (by simp)
  rw [number]
  refine (takes_wholeDigits n h).last ?_
  refine (takes_peek rest).look ?_
  simp only [if_neg hpoint]
  refine (takes_pure _ rest).look ?_
  refine (takes_peek rest).look ?_
  refine (takes_peek rest).look ?_
  refine (takes_peek rest).look ?_
  refine (takes_peek rest).look ?_
  simp only [he, hE, decide_false, Bool.or_false, Bool.false_eq_true, if_false]
  refine (takes_pure _ rest).look ?_
  simp [Python.StringLiteral.numberOf_toDigits, hn]
  exact takes_pure _ rest

end Numbers

/-- A reader takes the text of a value behind any blanks, in front of what may follow a value. The
text starts with neither a blank nor a closing bracket. -/
structure Reads (r : Reader α) (text : List Char) (a : α) : Prop where
  starts : ∃ c cs, text = c :: cs ∧ isSpace c = false ∧ c ≠ ']'
  takes : ∀ {blanks rest}, Blank blanks → Ends rest → Takes r (blanks ++ text) rest a

section Values
variable {r : Reader α} {text : List Char} {a : α}

theorem Reads.noBlankFirst (h : Reads r text a) (rest : List Char) :
    NoBlankFirst (text ++ rest) := by
  obtain ⟨c,cs,rfl,hc,-⟩ := h.starts
  exact noBlankFirst_cons hc

theorem Reads.map {g : α → β} (h : Reads r text a) :
    Reads (do let a ← r; return g a) text (g a) :=
  ⟨h.starts,fun hb he => (h.takes hb he).last (takes_pure _ _)⟩

/-- A value that is recognised by its first character. -/
theorem Reads.of_first {f : Char → Reader α} {c : Char} {cs : List Char}
    (hspace : isSpace c = false) (hclose : c ≠ ']')
    (h : ∀ {rest}, Ends rest → Takes (f c) (c :: cs) rest a) :
    Reads (startOfValue >>= f) (c :: cs) a :=
  ⟨⟨c,cs,rfl,hspace,hclose⟩,fun hb he => (takes_startOfValue hb hspace).bind (h he)⟩

theorem reads_string (expected s : String) : Reads (string expected) (renderString s) s := by
  refine Reads.of_first rfl (by decide) fun _ => ?_
  rw [if_pos rfl]
  exact (takes_bump '"' _).bind (takes_stringRest s _)

theorem reads_boolean (b : Bool) : Reads boolean (compactChars (.bool b)) b := by
  cases b with
  | false =>
    exact Reads.of_first rfl (by decide) fun _ =>
      (takes_bump 'f' _).bind ((takes_word ['a', 'l', 's', 'e'] _).last (takes_pure _ _))
  | true =>
    exact Reads.of_first rfl (by decide) fun _ =>
      (takes_bump 't' _).bind ((takes_word ['r', 'u', 'e'] _).last (takes_pure _ _))

theorem exists_renderInt (n : Nat) : ∃ d ds, renderInt n = d :: ds ∧ d.isDigit = true := by
  cases h : Nat.toDigits 10 n with
  | nil => exact absurd h Nat.toDigits_ne_nil
  | cons d ds => exact ⟨d,ds,h,isDigit_toDigits d (h ▸ List.mem_cons_self)⟩

theorem ne_of_isDigit {c d : Char} (hc : c.isDigit = true) (hd : d.isDigit = false) :
    c ≠ d := by
  rintro rfl
  exact absurd hc (by simp [hd])

theorem isSpace_of_isDigit {c : Char} (hc : c.isDigit = true) : isSpace c = false := by
  have hne {d : Char} (hd : d.isDigit = false) : c ≠ d := ne_of_isDigit hc hd
  simp [isSpace, hne]

theorem reads_natural (expected : String) {n : Nat} (hn : n < Nat.pow 2 64) :
    Reads (natural expected) (renderInt n) n := by
  obtain ⟨d,ds,hds,hd⟩ := exists_renderInt n
  rw [hds]
  refine Reads.of_first (isSpace_of_isDigit hd) (ne_of_isDigit hd rfl) fun he => ?_
  rw [if_neg (ne_of_isDigit hd rfl), if_pos hd, ← hds]
  exact (takes_number hn he).last (takes_pure n _)

theorem reads_none (r : Reader α) : Reads (optional r) ['n', 'u', 'l', 'l'] none := by
  refine ⟨⟨'n',_,rfl,rfl,by decide⟩,fun hb _ => ?_⟩
  refine (takes_peekValue hb (noBlankFirst_cons rfl)).bind ?_
  simp only [List.head?_cons, if_true]
  exact (takes_bump 'n' _).bind ((takes_word ['u', 'l', 'l'] _).last (takes_pure _ _))

theorem Reads.optional (h : Reads r text a) (hn : 'n' ∉ text.head?) :
    Reads (optional r) text (some a) := by
  refine ⟨h.starts,fun hb he => ?_⟩
  refine (takes_peekValue hb (h.noBlankFirst _)).bind ?_
  obtain ⟨c,cs,rfl,-⟩ := h.starts
  rw [if_neg (by simpa using hn)]
  exact (h.takes blank_nil he).last (takes_pure _ _)

end Values

end DocSnapshot.Json.Reader
