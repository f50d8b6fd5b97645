import Mathlib.Data.List.TakeWhile
import DocSnapshot.Proofs.Python.Quotation
import DocSnapshot.Proofs.Text.Slices

/-! Which texts are string literals. A literal is letters, a mark, a body and the mark again, in one
way only, and taking it apart by byte offsets never cuts through a character. -/
namespace DocSnapshot.Python.StringLiteral
open DocSnapshot.Text (byteLength slice? minus? byteLength_append byteLength_cons
  slice?_eq_some_iff slice?_start slice?_end)

/-- A text as letters, a mark of one quote or of three, a body, and the mark again. A single mark
does not begin three quotes. -/
structure Delimited (text flags mark body : List Char) : Prop where
  text_eq : text = flags ++ (mark ++ body ++ mark)
  letters : ∀ c ∈ flags, c ∈ "rRbBuUfFtT".toList
  quotes : ∃ c, (c = '\'' ∨ c = '"') ∧
    (mark = [c, c, c] ∨ mark = [c] ∧ ¬[c, c, c] <+: mark ++ body ++ mark)

/-- What letters and a body make of a literal. -/
structure Means (s : StringLiteral) (flags body : List Char) : Prop where
  raw_iff : s.raw = true ↔ 'r' ∈ flags.map Char.toLower
  bytes_iff : s.bytes = true ↔ 'b' ∈ flags.map Char.toLower
  formatted_iff : s.formatted = true ↔
    'f' ∈ flags.map Char.toLower ∨ 't' ∈ flags.map Char.toLower
  value_eq : s.value = String.ofList (if s.raw || s.bytes then body else decode body)

/-- Takes a literal apart by the byte offsets of its letters, its marks and its body. The outer
result is missing if an offset lies inside a character, behind the end or behind the other one. -/
def slices? (s : List Char) : Option (Option (List Char × List Char × List Char)) :=
  match s.findIdx? isQuote with
  | none => some none
  | some i => do
    let start := byteLength (s.take i)
    let flags ← slice? s 0 start
    if flags.all isFlag then
      let quoted ← slice? s start (byteLength s)
      let threefold := ['"', '"', '"'].isPrefixOf quoted || ['\'', '\'', '\''].isPrefixOf quoted
      let mark ← slice? quoted 0 (if threefold then 3 else 1)
      if byteLength quoted < 2 * byteLength mark || !mark.isSuffixOf quoted then some none
      else
        let stop ← minus? (byteLength quoted) (byteLength mark)
        let body ← slice? quoted (byteLength mark) stop
        some (some (flags, mark, body))
    else some none

section Marks

variable {c : Char} {flags rest mark body : List Char}

theorem isQuote_iff : isQuote c = true ↔ c = '\'' ∨ c = '"' := by
  simp [isQuote, or_comm]

theorem openingMark_eq (c : Char) (rest : List Char) :
    openingMark c rest = if [c, c, c] <+: c :: rest then [c, c, c] else [c] := by
  have hthree : rest.take 2 = [c, c] ↔ [c, c, c] <+: c :: rest := by
    rw [List.cons_prefix_cons, List.prefix_iff_eq_take]
    simp [eq_comm]
  rw [openingMark]
  simp only [hthree]

theorem openingMark_opens (c : Char) (rest : List Char) : openingMark c rest <+: c :: rest := by
  rw [openingMark_eq]
  split
  · next hthree => exact hthree
  · exact ⟨rest,rfl⟩

theorem mem_openingMark {d : Char} (h : d ∈ openingMark c rest) : d = c := by
  rw [openingMark_eq] at h
  split at h <;> simpa using h

private theorem eq_between {s : List Char} (hopens : mark <+: s) (hcloses : mark <:+ s)
    (hroom : 2 * mark.length ≤ s.length) :
    s = mark ++ (s.drop mark.length).take (s.length - 2 * mark.length) ++ mark := by
  obtain ⟨t,rfl⟩ := hopens
  rw [List.length_append] at hroom
  have htail : mark <:+ t := by
    refine List.suffix_of_suffix_length_le hcloses (List.suffix_append mark t) ?_
    omega
  obtain ⟨middle,rfl⟩ := htail
  have hmiddle : mark.length + (middle.length + mark.length) - 2 * mark.length = middle.length := by
    omega
  simp [hmiddle]

/-- The text from its first quote on is taken apart by the mark that stands there. -/
theorem split?_append (hflags : ∀ d ∈ flags, isQuote d = false) (hc : isQuote c = true)
    (rest : List Char) :
    split? (flags ++ c :: rest) =
      if flags.all isFlag = true ∧ 2 * (openingMark c rest).length ≤ (c :: rest).length ∧
          openingMark c rest <:+ c :: rest then
        some (flags, openingMark c rest, ((c :: rest).drop (openingMark c rest).length).take
          ((c :: rest).length - 2 * (openingMark c rest).length))
      else none := by
  have hall : ∀ d ∈ flags, (!isQuote d) = true := by simpa using hflags
  have htake : (flags ++ c :: rest).takeWhile (!isQuote ·) = flags := by
    rw [List.takeWhile_append_of_pos hall, List.takeWhile_cons_of_neg (by simp [hc]),
      List.append_nil]
  have hdrop : (flags ++ c :: rest).dropWhile (!isQuote ·) = c :: rest := by
    rw [List.dropWhile_append_of_pos hall, List.dropWhile_cons_of_neg (by simp [hc])]
  have hcloses (mark s : List Char) : s.drop (s.length - mark.length) = mark ↔ mark <:+ s := by
    rw [List.suffix_iff_eq_drop, eq_comm]
  rw [split?]
  simp only [htake, hdrop, Bool.and_eq_true, decide_eq_true_eq, hcloses, and_assoc]

theorem split?_of_no_quote {s : List Char} (h : ∀ c ∈ s, isQuote c = false) : split? s = none := by
  have hdrop : s.dropWhile (!isQuote ·) = [] := by simpa [List.dropWhile_eq_nil_iff] using h
  rw [split?]
  simp only [hdrop]

/-- A text has no quote, or a first one. -/
theorem exists_first_quote (s : List Char) : (∀ c ∈ s, isQuote c = false) ∨
    ∃ flags c rest, s = flags ++ c :: rest ∧ (∀ d ∈ flags, isQuote d = false) ∧
      isQuote c = true := by
  cases hfind : s.find? isQuote with
  | none => exact .inl (by simpa [List.find?_eq_none] using hfind)
  | some c =>
    obtain ⟨hc,flags,rest,rfl,hflags⟩ := List.find?_eq_some_iff_append.mp hfind
    exact .inr ⟨flags,c,rest,rfl,by simpa using hflags,hc⟩

private theorem not_isQuote_of_isFlag (h : isFlag c = true) : isQuote c = false := by
  have hall : "rRbBuUfFtT".toList.all (fun c => !isQuote c) = true := by decide
  rw [isFlag, List.contains_iff_mem] at h
  simpa using List.all_eq_true.mp hall c h

/-- The text from the first quote of a literal on, with its opening mark. -/
theorem Delimited.opening {text : List Char} (h : Delimited text flags mark body) :
    (∀ d ∈ flags, isFlag d = true) ∧ ∃ c rest, isQuote c = true ∧
      mark ++ body ++ mark = c :: rest ∧ openingMark c rest = mark := by
  obtain ⟨-,hletters,c,hc,hmark⟩ := h
  refine ⟨fun d hd => by simpa [isFlag] using hletters d hd,c,(mark ++ body ++ mark).tail,
    isQuote_iff.mpr hc,?_⟩
  rw [openingMark_eq]
  rcases hmark with rfl | ⟨rfl,hsingle⟩
  · simp
  · simpa using hsingle

/-- A text is taken apart exactly as letters, marks and a body make it up. -/
theorem split?_eq_some_iff {text : List Char} :
    split? text = some (flags, mark, body) ↔ Delimited text flags mark body := by
  constructor
  · intro h
    rcases exists_first_quote text with hnone | ⟨flags',c,rest,rfl,hflags,hc⟩
    · rw [split?_of_no_quote hnone] at h
      cases h
    · rw [split?_append hflags hc] at h
      split at h
      · next hparts =>
        obtain ⟨hletters,hroom,hcloses⟩ := hparts
        simp only [Option.some_inj, Prod.mk.injEq] at h
        obtain ⟨rfl,hmark,hbody⟩ := h
        -- The test for room is what keeps the two marks from sharing quotes.
        have hbetween := eq_between (openingMark_opens c rest) hcloses hroom
        rw [hbody, hmark] at hbetween
        refine ⟨by rw [hbetween],by simpa [isFlag] using hletters,c,isQuote_iff.mp hc,?_⟩
        rw [openingMark_eq] at hmark
        rw [← hbetween]
        split at hmark
        · exact .inl hmark.symm
        · next hsingle => exact .inr ⟨hmark.symm,hsingle⟩
      · cases h
  · intro h
    obtain ⟨hletters,c,rest,hc,hquoted,hmark⟩ := h.opening
    have hroom : 2 * mark.length ≤ (mark ++ body ++ mark).length := by simp; omega
    have hlength : (mark ++ body ++ mark).length - 2 * mark.length = body.length := by simp; omega
    rw [h.text_eq, hquoted, split?_append (fun d hd => not_isQuote_of_isFlag (hletters d hd)) hc,
      hmark, ← hquoted, if_pos ⟨List.all_eq_true.mpr hletters,hroom,List.suffix_append _ _⟩,
      hlength, List.append_assoc, List.drop_left, List.take_left]

/-- A text is a literal in one way only. -/
theorem Delimited.unique {text flags' mark' body' : List Char}
    (h : Delimited text flags mark body) (h' : Delimited text flags' mark' body') :
    flags = flags' ∧ mark = mark' ∧ body = body' := by
  have hsplit := split?_eq_some_iff.mpr h
  rw [split?_eq_some_iff.mpr h'] at hsplit
  simpa [eq_comm] using hsplit

end Marks

section Offsets

variable {c : Char} {rest mark : List Char}

private theorem utf8Size_of_isQuote (h : isQuote c = true) : c.utf8Size = 1 := by
  rcases isQuote_iff.mp h with rfl | rfl <;> rfl

private theorem length_le_byteLength (s : List Char) : s.length ≤ byteLength s := by
  induction s with
  | nil => exact Nat.le_refl 0
  | cons c s ih =>
    have hsize := c.utf8Size_pos
    rw [List.length_cons, byteLength_cons]
    omega

private theorem byteLength_of_quotes (hc : isQuote c = true) {s : List Char}
    (h : ∀ d ∈ s, d = c) : byteLength s = s.length := by
  induction s with
  | nil => rfl
  | cons d s ih =>
    rw [List.forall_mem_cons] at h
    rw [byteLength_cons, ih h.2, h.1, utf8Size_of_isQuote hc, List.length_cons, Nat.add_comm]

theorem byteLength_openingMark (hc : isQuote c = true) (rest : List Char) :
    byteLength (openingMark c rest) = (openingMark c rest).length :=
  byteLength_of_quotes hc fun _ => mem_openingMark

private theorem slice?_openingMark (hc : isQuote c = true) (rest : List Char) :
    slice? (c :: rest) 0 (if ['"', '"', '"'].isPrefixOf (c :: rest) ||
      ['\'', '\'', '\''].isPrefixOf (c :: rest) then 3 else 1) = some (openingMark c rest) := by
  have hthree : (['"', '"', '"'].isPrefixOf (c :: rest) ||
      ['\'', '\'', '\''].isPrefixOf (c :: rest)) = true ↔ [c, c, c] <+: c :: rest := by
    rw [Bool.or_eq_true, List.isPrefixOf_iff_prefix, List.isPrefixOf_iff_prefix]
    rcases isQuote_iff.mp hc with rfl | rfl <;> simp
  have hwidth : (if ['"', '"', '"'].isPrefixOf (c :: rest) ||
      ['\'', '\'', '\''].isPrefixOf (c :: rest) then 3 else 1) =
        byteLength (openingMark c rest) := by
    rw [byteLength_openingMark hc, openingMark_eq]
    simp only [hthree]
    split <;> rfl
  obtain ⟨tail,htail⟩ := openingMark_opens c rest
  rw [hwidth, ← htail]
  exact slice?_start _ tail

private theorem byteLength_lt_iff (hc : isQuote c = true)
    (hcloses : openingMark c rest <:+ c :: rest) :
    byteLength (c :: rest) < 2 * byteLength (openingMark c rest) ↔
      (c :: rest).length < 2 * (openingMark c rest).length := by
  -- Where two marks would overlap all characters are quotes, so bytes and characters count alike.
  rw [byteLength_openingMark hc]
  refine ⟨fun h => Nat.lt_of_le_of_lt (length_le_byteLength _) h,fun h => ?_⟩
  -- A text too short for two marks ends within the mark that closes it.
  obtain ⟨tail,htail⟩ := openingMark_opens c rest
  have hends : tail <:+ c :: rest := ⟨_,htail⟩
  have hshort : tail <:+ openingMark c rest := by
    refine List.suffix_of_suffix_length_le hends hcloses ?_
    rw [← htail, List.length_append] at h
    omega
  have hquotes : ∀ d ∈ c :: rest, d = c := by
    intro d hd
    rw [← htail, List.mem_append] at hd
    exact mem_openingMark (hd.elim id fun hd => hshort.mem hd)
  rwa [byteLength_of_quotes hc hquotes]

private theorem overlaps_iff (hc : isQuote c = true) :
    (decide (byteLength (c :: rest) < 2 * byteLength (openingMark c rest)) ||
      !(openingMark c rest).isSuffixOf (c :: rest)) = true ↔
    ¬(2 * (openingMark c rest).length ≤ (c :: rest).length ∧
      openingMark c rest <:+ c :: rest) := by
  rw [Bool.or_eq_true, decide_eq_true_eq, Bool.not_eq_true', ← Bool.not_eq_true,
    List.isSuffixOf_iff_suffix]
  by_cases hcloses : openingMark c rest <:+ c :: rest
  · rw [byteLength_lt_iff hc hcloses, and_iff_left hcloses, or_iff_left (not_not_intro hcloses),
      Nat.not_le]
  · exact iff_of_true (.inr hcloses) fun h => hcloses h.2

private theorem slice?_body {s body : List Char} (hs : s = mark ++ body ++ mark) :
    (minus? (byteLength s) (byteLength mark)).bind (slice? s (byteLength mark)) = some body := by
  have hroom : byteLength mark ≤ byteLength s := by
    rw [hs, byteLength_append]
    exact Nat.le_add_left _ _
  rw [minus?, if_pos hroom, Option.bind_some, slice?_eq_some_iff]
  refine ⟨mark,mark,hs,rfl,?_⟩
  rw [hs, byteLength_append (mark ++ body), Nat.add_sub_cancel]

/-- Every slice that is asked for lies between characters, and the slices are the parts. -/
theorem slices?_eq (s : List Char) : slices? s = some (split? s) := by
  rcases exists_first_quote s with hnone | ⟨flags,c,rest,rfl,hflags,hc⟩
  · have hfind : s.findIdx? isQuote = none := by simpa [List.findIdx?_eq_none_iff] using hnone
    rw [slices?, hfind, split?_of_no_quote hnone]
  · have hfind : (flags ++ c :: rest).findIdx? isQuote = some flags.length := by
      have hnone : flags.findIdx? isQuote = none := by
        simpa [List.findIdx?_eq_none_iff] using hflags
      simp [List.findIdx?_append, List.findIdx?_cons, hnone, hc]
    rw [slices?, hfind, split?_append hflags hc]
    simp only [List.take_left, slice?_start, slice?_end, slice?_openingMark hc, Option.bind_eq_bind,
      Option.bind_some]
    by_cases hletters : flags.all isFlag = true
    · by_cases hparts : 2 * (openingMark c rest).length ≤ (c :: rest).length ∧
          openingMark c rest <:+ c :: rest
      · have hbody := slice?_body (eq_between (openingMark_opens c rest) hparts.2 hparts.1)
        rw [if_pos hletters, if_neg ((overlaps_iff hc).not.mpr (not_not_intro hparts)),
          if_pos ⟨hletters,hparts⟩, ← Option.bind_assoc, hbody, Option.bind_some]
      · rw [if_pos hletters, if_pos ((overlaps_iff hc).mpr hparts), if_neg fun h => hparts h.2]
    · rw [if_neg hletters, if_neg fun h => hletters h.1]

end Offsets

section Letters

variable {flags body : List Char}

private theorem any_contains_iff (hflags : ∀ c ∈ flags, c ∈ "rRbBuUfFtT".toList)
    (letters lows : List Char) (hcases : "rRbBuUfFtT".toList.all
      (fun c => letters.contains c == lows.contains c.toLower) = true) :
    flags.any letters.contains = true ↔ ∃ low ∈ lows, low ∈ flags.map Char.toLower := by
  have heq (c : Char) (hc : c ∈ flags) : letters.contains c = lows.contains c.toLower := by
    simpa using List.all_eq_true.mp hcases c (hflags c hc)
  rw [List.any_eq_true]
  constructor
  · rintro ⟨c,hc,hletter⟩
    rw [heq c hc, List.contains_iff_mem] at hletter
    exact ⟨_,hletter,List.mem_map_of_mem hc⟩
  · rintro ⟨low,hlow,hmem⟩
    obtain ⟨c,hc,rfl⟩ := List.mem_map.mp hmem
    exact ⟨c,hc,by rwa [heq c hc, List.contains_iff_mem]⟩

theorem Means.unique {s s' : StringLiteral} (h : Means s flags body) (h' : Means s' flags body) :
    s = s' := by
  have hraw : s.raw = s'.raw := Bool.eq_iff_iff.mpr (h.raw_iff.trans h'.raw_iff.symm)
  have hbytes : s.bytes = s'.bytes := Bool.eq_iff_iff.mpr (h.bytes_iff.trans h'.bytes_iff.symm)
  have hformatted : s.formatted = s'.formatted :=
    Bool.eq_iff_iff.mpr (h.formatted_iff.trans h'.formatted_iff.symm)
  have hvalue : s.value = s'.value := by rw [h.value_eq, h'.value_eq, hraw, hbytes]
  cases s
  cases s'
  simp_all

/-- The parts of a literal say what it is. -/
theorem parse?_of_delimited {text : String} {mark : List Char}
    (h : Delimited text.toList flags mark body) :
    ∃ s, parse? text = some s ∧ Means s flags body := by
  refine ⟨_,by rw [parse?, split?_eq_some_iff.mpr h]; rfl,?_⟩
  constructor
  · simpa using any_contains_iff h.letters ['r', 'R'] ['r'] (by decide)
  · simpa using any_contains_iff h.letters ['b', 'B'] ['b'] (by decide)
  · simpa using any_contains_iff h.letters ['f', 'F', 't', 'T'] ['f', 't'] (by decide)
  · rfl

end Letters

/-- A text is read as a literal exactly if it is letters, a mark, a body and the mark again, which
it is in one way at most, and the letters and the body are what the literal tells. The parts are
also what slices between byte offsets give, none of which can miss. -/
theorem parse?_accepts_exactly (text : String) :
    slices? text.toList = some (split? text.toList) ∧
    (∀ s, parse? text = some s ↔
      ∃ flags mark body, Delimited text.toList flags mark body ∧ Means s flags body) ∧
    ∀ flags mark body flags' mark' body', Delimited text.toList flags mark body →
      Delimited text.toList flags' mark' body' → flags = flags' ∧ mark = mark' ∧ body = body' := by
  refine ⟨slices?_eq _,fun s => ⟨fun h => ?_,?_⟩,fun _ _ _ _ _ _ h h' => h.unique h'⟩
  · obtain ⟨⟨flags,mark,body⟩,hsplit,-⟩ := Option.map_eq_some_iff.mp h
    have hparts := split?_eq_some_iff.mp hsplit
    obtain ⟨s',hs',hmeans⟩ := parse?_of_delimited hparts
    obtain rfl : s = s' := Option.some.inj (h.symm.trans hs')
    exact ⟨flags,mark,body,hparts,hmeans⟩
  · rintro ⟨flags,mark,body,hparts,hmeans⟩
    obtain ⟨s',hs',hmeans'⟩ := parse?_of_delimited hparts
    rw [hs', hmeans.unique hmeans']

end DocSnapshot.Python.StringLiteral
