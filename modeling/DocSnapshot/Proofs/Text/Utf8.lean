import DocSnapshot.Proofs.Text.Order

/-! Texts and their bytes. The bytes of a text are read as that text, and bytes that are read as a
text are its bytes. -/
namespace DocSnapshot.Text.Utf8

/-- The bytes that stand for a code point. The first tells how many follow; behind some of them the
second is bounded, so that no code point has two sequences and no surrogate has one. -/
inductive Sequence : List UInt8 → Nat → Prop where
  | one {a : UInt8} (first : a.toNat < 128) : Sequence [a] a.toNat
  | two {a b : UInt8} (first : 194 ≤ a.toNat ∧ a.toNat ≤ 223)
      (tail : 128 ≤ b.toNat ∧ b.toNat ≤ 191) : Sequence [a, b] (a.toNat % 32 * 64 + b.toNat % 64)
  | three {a b c : UInt8} (first : 224 ≤ a.toNat ∧ a.toNat ≤ 239)
      (tail : 128 ≤ b.toNat ∧ b.toNat ≤ 191) (bound : (a.toNat = 224 → 160 ≤ b.toNat) ∧
        (a.toNat = 237 → b.toNat ≤ 159)) (tail' : 128 ≤ c.toNat ∧ c.toNat ≤ 191) :
      Sequence [a, b, c] ((a.toNat % 16 * 64 + b.toNat % 64) * 64 + c.toNat % 64)
  | four {a b c d : UInt8} (first : 240 ≤ a.toNat ∧ a.toNat ≤ 244)
      (tail : 128 ≤ b.toNat ∧ b.toNat ≤ 191) (bound : (a.toNat = 240 → 144 ≤ b.toNat) ∧
        (a.toNat = 244 → b.toNat ≤ 143)) (tail' : 128 ≤ c.toNat ∧ c.toNat ≤ 191)
      (tail'' : 128 ≤ d.toNat ∧ d.toNat ≤ 191) :
      Sequence [a, b, c, d] (((a.toNat % 8 * 64 + b.toNat % 64) * 64 + c.toNat % 64) * 64 +
        d.toNat % 64)

private theorem isValidChar_iff (v : Nat) :
    v.isValidChar ↔ v < 55296 ∨ 57343 < v ∧ v < 1114112 := Iff.rfl

private theorem toNat_ofNat {v : Nat} (h : v.isValidChar) : (Char.ofNat v).val.toNat = v := by
  rw [Char.ofNat, dif_pos h]
  rfl

private theorem ofNat_eq_iff {n : Nat} {b : UInt8} : UInt8.ofNat n = b ↔ n % 256 = b.toNat := by
  simp [← UInt8.toNat_inj]

private theorem Sequence.encodeChar {bs : List UInt8} {v : Nat} (h : Sequence bs v) :
    String.utf8EncodeChar (Char.ofNat v) = bs := by
  have hvalid : v.isValidChar := by
    rw [isValidChar_iff]
    cases h with
    | _ => omega
  simp only [String.utf8EncodeChar, toNat_ofNat hvalid]
  cases h with
  | one first =>
    rw [if_pos (by omega)]
    simp
  | two first tail =>
    rw [if_neg (by omega), if_pos (by omega)]
    simp only [List.cons.injEq, ofNat_eq_iff, and_true]
    omega
  | three first tail bound tail' =>
    rw [if_neg (by omega), if_neg (by omega), if_pos (by omega)]
    simp only [List.cons.injEq, ofNat_eq_iff, and_true]
    omega
  | four first tail bound tail' tail'' =>
    rw [if_neg (by omega), if_neg (by omega), if_neg (by omega)]
    simp only [List.cons.injEq, ofNat_eq_iff, and_true]
    omega

private theorem sequence_encodeChar (c : Char) :
    Sequence (String.utf8EncodeChar c) c.val.toNat := by
  have hvalid : c.val.toNat.isValidChar := c.valid
  rw [isValidChar_iff] at hvalid
  simp only [String.utf8EncodeChar]
  generalize c.val.toNat = v at *
  have hbyte : ∀ n < 256, (UInt8.ofNat n).toNat = n := fun n hn => by simpa using hn
  split
  · next h =>
    have hfirst := hbyte v (by omega)
    simpa [hfirst] using Sequence.one (a := UInt8.ofNat v) (by omega)
  split
  · next h h' =>
    have hfirst := hbyte (v / 64 % 32 + 192) (by omega)
    have htail := hbyte (v % 64 + 128) (by omega)
    have hseq := Sequence.two (a := UInt8.ofNat (v / 64 % 32 + 192))
      (b := UInt8.ofNat (v % 64 + 128)) (by omega) (by omega)
    rw [hfirst, htail] at hseq
    convert hseq using 1
    omega
  split
  · next h h' h'' =>
    have hfirst := hbyte (v / 4096 % 16 + 224) (by omega)
    have htail := hbyte (v / 64 % 64 + 128) (by omega)
    have htail' := hbyte (v % 64 + 128) (by omega)
    have hseq := Sequence.three (a := UInt8.ofNat (v / 4096 % 16 + 224))
      (b := UInt8.ofNat (v / 64 % 64 + 128)) (c := UInt8.ofNat (v % 64 + 128)) (by omega)
      (by omega) (by omega) (by omega)
    rw [hfirst, htail, htail'] at hseq
    convert hseq using 1
    omega
  · next h h' h'' =>
    have hfirst := hbyte (v / 262144 % 8 + 240) (by omega)
    have htail := hbyte (v / 4096 % 64 + 128) (by omega)
    have htail' := hbyte (v / 64 % 64 + 128) (by omega)
    have htail'' := hbyte (v % 64 + 128) (by omega)
    have hseq := Sequence.four (a := UInt8.ofNat (v / 262144 % 8 + 240))
      (b := UInt8.ofNat (v / 4096 % 64 + 128)) (c := UInt8.ofNat (v / 64 % 64 + 128))
      (d := UInt8.ofNat (v % 64 + 128)) (by omega) (by omega) (by omega) (by omega) (by omega)
    rw [hfirst, htail, htail', htail''] at hseq
    convert hseq using 1
    omega

section Step

private theorem leadBits_eq (b : UInt8) : leadBits b =
    if b.toNat < 224 then b.toNat % 32 else if b.toNat < 240 then b.toNat % 16
    else b.toNat % 8 := by
  have hbits : ∀ (mask : UInt8) (n : Nat), mask.toNat = 2 ^ n - 1 →
      (b &&& mask).toNat = b.toNat % 2 ^ n := by
    intro mask n hmask
    rw [UInt8.toNat_and, hmask]
    exact Nat.and_two_pow_sub_one_eq_mod _ n
  rw [leadBits, hbits 0x1f 5 rfl, hbits 0x0f 4 rfl, hbits 0x07 3 rfl]
  simp [UInt8.lt_iff_toNat_lt]

private theorem lead?_eq (b : UInt8) : lead? b =
    if 194 ≤ b.toNat ∧ b.toNat ≤ 223 then some (1, 0x80, 0xbf)
    else if b.toNat = 224 then some (2, 0xa0, 0xbf)
    else if b.toNat = 237 then some (2, 0x80, 0x9f)
    else if 225 ≤ b.toNat ∧ b.toNat ≤ 239 then some (2, 0x80, 0xbf)
    else if b.toNat = 240 then some (3, 0x90, 0xbf)
    else if 241 ≤ b.toNat ∧ b.toNat ≤ 243 then some (3, 0x80, 0xbf)
    else if b.toNat = 244 then some (3, 0x80, 0x8f)
    else none := by
  simp [lead?, UInt8.le_iff_toNat_le, ← UInt8.toNat_inj]

variable {code taken n : Nat} {low high : UInt8} {bs after : List UInt8} {c : Char}

private theorem tailBytes_zero_iff : tailBytes code taken 0 low high bs = .char c after ↔
    c = Char.ofNat code ∧ bs = after := by
  simp [tailBytes, eq_comm]

private theorem tailBytes_succ_iff : tailBytes code taken (n + 1) low high bs = .char c after ↔
    ∃ b rest, bs = b :: rest ∧ (low.toNat ≤ b.toNat ∧ b.toNat ≤ high.toNat) ∧
      tailBytes (code * 64 + b.toNat % 64) (taken + 1) n 0x80 0xbf rest = .char c after := by
  have hlow6 : ∀ b : UInt8, (b &&& 0x3f).toNat = b.toNat % 64 := fun b => by
    rw [UInt8.toNat_and]
    exact Nat.and_two_pow_sub_one_eq_mod _ 6
  cases bs with
  | nil => simp [tailBytes]
  | cons b rest =>
    rw [tailBytes, hlow6]
    by_cases hb : low.toNat ≤ b.toNat ∧ b.toNat ≤ high.toNat
    · simp [UInt8.le_iff_toNat_le, hb]
    · rw [if_neg (by simpa [UInt8.le_iff_toNat_le] using hb)]
      simp only [reduceCtorEq, List.cons.injEq, false_iff, not_exists]
      rintro b' rest' ⟨⟨rfl,rfl⟩,hb',-⟩
      exact hb hb'

private theorem sequence_of_lead {b : UInt8} {rest : List UInt8}
    (hlead : lead? b = some (n, low, high))
    (h : tailBytes (leadBits b) 1 n low high rest = .char c after) :
    ∃ bs v, Sequence bs v ∧ b :: rest = bs ++ after ∧ c = Char.ofNat v := by
  rw [leadBits_eq] at h
  rw [lead?_eq] at hlead
  have htwo (hn : n = 1) (hb : 194 ≤ b.toNat ∧ b.toNat ≤ 223)
      (hrange : 128 ≤ low.toNat ∧ high.toNat ≤ 191) :
      ∃ bs v, Sequence bs v ∧ b :: rest = bs ++ after ∧ c = Char.ofNat v := by
    subst hn
    simp only [tailBytes_succ_iff, tailBytes_zero_iff] at h
    obtain ⟨x,_,rfl,hx,rfl,rfl⟩ := h
    rw [if_pos (by omega)]
    exact ⟨_,_,.two hb (by omega),rfl,rfl⟩
  have hthree (hn : n = 2) (hb : 224 ≤ b.toNat ∧ b.toNat ≤ 239)
      (hrange : 128 ≤ low.toNat ∧ high.toNat ≤ 191)
      (hbound : (b.toNat = 224 → 160 ≤ low.toNat) ∧ (b.toNat = 237 → high.toNat ≤ 159)) :
      ∃ bs v, Sequence bs v ∧ b :: rest = bs ++ after ∧ c = Char.ofNat v := by
    subst hn
    simp only [tailBytes_succ_iff, tailBytes_zero_iff] at h
    obtain ⟨x,_,rfl,hx,y,_,rfl,hy,rfl,rfl⟩ := h
    rw [if_neg (by omega), if_pos (by omega)]
    exact ⟨_,_,.three hb (by omega) (by omega) hy,rfl,rfl⟩
  have hfour (hn : n = 3) (hb : 240 ≤ b.toNat ∧ b.toNat ≤ 244)
      (hrange : 128 ≤ low.toNat ∧ high.toNat ≤ 191)
      (hbound : (b.toNat = 240 → 144 ≤ low.toNat) ∧ (b.toNat = 244 → high.toNat ≤ 143)) :
      ∃ bs v, Sequence bs v ∧ b :: rest = bs ++ after ∧ c = Char.ofNat v := by
    subst hn
    simp only [tailBytes_succ_iff, tailBytes_zero_iff] at h
    obtain ⟨x,_,rfl,hx,y,_,rfl,hy,z,_,rfl,hz,rfl,rfl⟩ := h
    rw [if_neg (by omega), if_neg (by omega)]
    exact ⟨_,_,.four hb (by omega) (by omega) hy hz,rfl,rfl⟩
  split at hlead
  · next hb => cases hlead; exact htwo rfl hb (by decide)
  split at hlead
  · next hb => cases hlead; exact hthree rfl (by omega) (by decide) (by simp [hb])
  split at hlead
  · next hb => cases hlead; exact hthree rfl (by omega) (by decide) (by simp [hb])
  split at hlead
  · next hne hne' hb => cases hlead; exact hthree rfl (by omega) (by decide) (by omega)
  split at hlead
  · next hb => cases hlead; exact hfour rfl (by omega) (by decide) (by simp [hb])
  split at hlead
  · next hne hb => cases hlead; exact hfour rfl (by omega) (by decide) (by omega)
  split at hlead
  · next hb => cases hlead; exact hfour rfl (by omega) (by decide) (by simp [hb])
  · cases hlead

private theorem not_ascii {b : UInt8} (h : 128 ≤ b.toNat) : ¬b < 0x80 := by
  rw [UInt8.lt_iff_toNat_lt]
  exact Nat.not_lt.mpr h

private theorem lead?_three {a b : UInt8} (first : 224 ≤ a.toNat ∧ a.toNat ≤ 239)
    (tail : 128 ≤ b.toNat ∧ b.toNat ≤ 191)
    (bound : (a.toNat = 224 → 160 ≤ b.toNat) ∧ (a.toNat = 237 → b.toNat ≤ 159)) :
    ∃ low high, lead? a = some (2, low, high) ∧ low.toNat ≤ b.toNat ∧ b.toNat ≤ high.toNat := by
  rw [lead?_eq, if_neg (by omega)]
  by_cases hlow : a.toNat = 224
  · exact ⟨_,_,if_pos hlow,bound.1 hlow,tail.2⟩
  by_cases hgap : a.toNat = 237
  · exact ⟨0x80,0x9f,by rw [if_neg hlow, if_pos hgap],tail.1,bound.2 hgap⟩
  · exact ⟨0x80,0xbf,by rw [if_neg hlow, if_neg hgap, if_pos (by omega)],tail⟩

private theorem lead?_four {a b : UInt8} (first : 240 ≤ a.toNat ∧ a.toNat ≤ 244)
    (tail : 128 ≤ b.toNat ∧ b.toNat ≤ 191)
    (bound : (a.toNat = 240 → 144 ≤ b.toNat) ∧ (a.toNat = 244 → b.toNat ≤ 143)) :
    ∃ low high, lead? a = some (3, low, high) ∧ low.toNat ≤ b.toNat ∧ b.toNat ≤ high.toNat := by
  rw [lead?_eq, if_neg (by omega), if_neg (by omega), if_neg (by omega), if_neg (by omega)]
  by_cases hlow : a.toNat = 240
  · exact ⟨_,_,if_pos hlow,bound.1 hlow,tail.2⟩
  by_cases hhigh : a.toNat = 244
  · exact ⟨0x80,0x8f,by rw [if_neg hlow, if_neg (by omega), if_pos hhigh],tail.1,bound.2 hhigh⟩
  · exact ⟨0x80,0xbf,by rw [if_neg hlow, if_pos (by omega)],tail⟩

private theorem step_eq_char_iff {b : UInt8} {rest : List UInt8} : step b rest = .char c after ↔
    ∃ bs v, Sequence bs v ∧ b :: rest = bs ++ after ∧ c = Char.ofNat v := by
  rw [step]
  constructor
  · intro h
    split at h
    · next hb =>
      cases h
      exact ⟨[b],_,.one (UInt8.lt_iff_toNat_lt.mp hb),rfl,rfl⟩
    · split at h
      · cases h
      · next hlead => exact sequence_of_lead hlead h
  · rintro ⟨bs,v,hseq,hbs,rfl⟩
    cases hseq with
    | one first =>
      cases hbs
      rw [if_pos (UInt8.lt_iff_toNat_lt.mpr first)]
      rfl
    | two first tail =>
      cases hbs
      rw [if_neg (not_ascii (by omega)), lead?_eq, leadBits_eq, if_pos first]
      simp only [tailBytes_succ_iff, tailBytes_zero_iff]
      exact ⟨_,_,rfl,tail,by rw [if_pos (by omega)],rfl⟩
    | three first tail bound tail' =>
      cases hbs
      obtain ⟨low,high,hlead,hrange⟩ := lead?_three first tail bound
      rw [if_neg (not_ascii (by omega)), hlead, leadBits_eq]
      simp only [tailBytes_succ_iff, tailBytes_zero_iff]
      exact ⟨_,_,rfl,hrange,_,_,rfl,tail',by rw [if_neg (by omega), if_pos (by omega)],rfl⟩
    | four first tail bound tail' tail'' =>
      cases hbs
      obtain ⟨low,high,hlead,hrange⟩ := lead?_four first tail bound
      rw [if_neg (not_ascii (by omega)), hlead, leadBits_eq]
      simp only [tailBytes_succ_iff, tailBytes_zero_iff]
      exact ⟨_,_,rfl,hrange,_,_,rfl,tail',_,_,rfl,tail'',
        by rw [if_neg (by omega), if_neg (by omega)],rfl⟩

/-- A character is read from its bytes, and from no others. -/
theorem step_eq_char_iff_encodeChar {b : UInt8} {rest : List UInt8} :
    step b rest = .char c after ↔ b :: rest = String.utf8EncodeChar c ++ after := by
  rw [step_eq_char_iff]
  constructor
  · rintro ⟨bs,v,hseq,hbs,rfl⟩
    rw [hbs, hseq.encodeChar]
  · exact fun h => ⟨_,_,sequence_encodeChar c,h,(Char.ofNat_toNat c).symm⟩

end Step

private theorem step_of_flatMap {b : UInt8} {rest : List UInt8} {cs : List Char}
    (h : b :: rest = cs.flatMap String.utf8EncodeChar) : ∃ c cs', cs = c :: cs' ∧
      step b rest = .char c (cs'.flatMap String.utf8EncodeChar) := by
  cases cs with
  | nil => cases h
  | cons c cs' => exact ⟨c,cs',rfl,step_eq_char_iff_encodeChar.mpr h⟩

private theorem decodeFrom_eq_ok_iff (index : Nat) (bytes : List UInt8) (cs : List Char) :
    decodeFrom index bytes = .ok cs ↔ bytes = cs.flatMap String.utf8EncodeChar := by
  fun_induction decodeFrom index bytes generalizing cs with
  | case1 index =>
    cases cs with
    | nil => simp
    | cons c cs => simp [String.utf8EncodeChar_ne_nil]
  | case2 index b rest c after hstep _ ih =>
    constructor
    · intro h
      cases hafter : decodeFrom (index + c.utf8Size) after with
      | error e =>
        rw [hafter] at h
        cases h
      | ok cs' =>
        rw [hafter] at h
        cases h
        rw [List.flatMap_cons, ← (ih cs').mp hafter]
        exact step_eq_char_iff_encodeChar.mp hstep
    · intro h
      obtain ⟨c',cs',rfl,hstep'⟩ := step_of_flatMap h
      cases hstep.symm.trans hstep'
      rw [(ih cs').mpr rfl]
      rfl
  | case3 index b rest n hstep =>
    refine ⟨(nomatch ·),fun h => ?_⟩
    obtain ⟨c,cs',-,hstep'⟩ := step_of_flatMap h
    cases hstep.symm.trans hstep'
  | case4 index b rest hstep =>
    refine ⟨(nomatch ·),fun h => ?_⟩
    obtain ⟨c,cs',-,hstep'⟩ := step_of_flatMap h
    cases hstep.symm.trans hstep'

/-- Some bytes are read as a text exactly when they are its bytes. -/
theorem decode_eq_ok_iff {bytes : List UInt8} {s : String} :
    decode bytes = .ok s ↔ bytes = encode s := by
  rw [encode_eq, ← decodeFrom_eq_ok_iff 0, decode]
  cases decodeFrom 0 bytes with
  | error e => exact ⟨(nomatch ·),(nomatch ·)⟩
  | ok cs =>
    simp only [Except.map, Except.ok.injEq]
    constructor
    · rintro rfl
      rw [String.toList_ofList]
    · rintro rfl
      rw [String.ofList_toList]

/-- Texts with the same bytes are the same. -/
theorem encodeChars_inj {cs ds : List Char}
    (h : cs.flatMap String.utf8EncodeChar = ds.flatMap String.utf8EncodeChar) : cs = ds := by
  have hbytes : encode (String.ofList cs) = encode (String.ofList ds) := by
    rw [encode_eq, encode_eq, String.toList_ofList, String.toList_ofList, h]
  have hread := decode_eq_ok_iff.mpr hbytes
  rw [decode_eq_ok_iff.mpr rfl] at hread
  exact String.ofList_inj.mp (Except.ok.inj hread)

/-- A byte below 128 is in the bytes of its own character alone. -/
theorem mem_encodeChar_iff {b : UInt8} (hb : b.toNat < 128) (c : Char) :
    b ∈ String.utf8EncodeChar c ↔ c.val.toNat = b.toNat := by
  have h := sequence_encodeChar c
  generalize String.utf8EncodeChar c = bytes at *
  generalize c.val.toNat = v at *
  cases h with
  | one first => simp [← UInt8.toNat_inj, eq_comm]
  | _ =>
    simp only [List.mem_cons, List.not_mem_nil, or_false, ← UInt8.toNat_inj]
    omega

theorem encode_append (s t : String) : encode (s ++ t) = encode s ++ encode t := by
  rw [encode_eq, encode_eq, encode_eq, String.toList_append, List.flatMap_append]

end DocSnapshot.Text.Utf8
