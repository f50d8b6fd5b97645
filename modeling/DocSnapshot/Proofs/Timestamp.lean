import DocSnapshot.Timestamp
import Mathlib.Order.Monotone.Basic
import Mathlib.Tactic.IntervalCases

/-! Moments written as text. Counting days from March splits them into eras, years and months, so a
number of days and its date determine each other; a written moment of the years 1 to 9999 is read
back as the same moment. -/
namespace DocSnapshot.Timestamp

def yearStart (y : Nat) : Nat := 365 * y + y / 4 - y / 100

private theorem yearStart_succ (y : Nat) : yearStart (y + 1) =
    yearStart y + 365 + if (y + 1) % 4 = 0 ∧ (y + 1) % 100 ≠ 0 then 1 else 0 := by
  rw [yearStart, yearStart]
  split <;> omega

def leapless (e : Nat) : Nat := e - e / 1460 + e / 36524 - e / 146096

private theorem leapless_mono : Monotone leapless :=
  monotone_nat_of_le_succ fun e => by
    rw [leapless, leapless]
    omega

private theorem leapless_bounds : ∀ y < 400, 365 * y ≤ leapless (yearStart y) ∧
    (0 < y → leapless (yearStart y - 1) < 365 * y) := by
  decide +kernel

private theorem year_of_leapless {e : Nat} (h : e < 146097) :
    leapless e / 365 < 400 ∧ yearStart (leapless e / 365) ≤ e ∧
      (leapless e / 365 < 399 → e < yearStart (leapless e / 365 + 1)) := by
  -- The year of a day lies between its own start and that of the next.
  have hlast : leapless e ≤ leapless 146096 := leapless_mono (by omega)
  have hend : leapless 146096 = 145999 := by decide
  generalize hy : leapless e / 365 = y
  have hlt : y < 400 := by omega
  refine ⟨hlt,?_,fun hless => ?_⟩
  · by_contra hbefore
    have hmono : leapless e ≤ leapless (yearStart y - 1) := leapless_mono (by omega)
    have hpos : 0 < y := by
      by_contra hzero
      obtain rfl : y = 0 := by omega
      simp [yearStart] at hbefore
    have hbound := (leapless_bounds y hlt).2 hpos
    omega
  · by_contra hafter
    have hmono : leapless (yearStart (y + 1)) ≤ leapless e := leapless_mono (by omega)
    have hbound := (leapless_bounds (y + 1) (by omega)).1
    omega

private theorem isLeap_iff (y : Int) :
    isLeap y = true ↔ y % 4 = 0 ∧ (y % 100 ≠ 0 ∨ y % 400 = 0) := by
  simp [isLeap]

/-- A day as an era, a year of the era and a day of that year, with years that start in March. -/
structure Split (days era : Int) (year day : Nat) : Prop where
  year_lt : year < 400
  day_le : day ≤ 364 ∨ day = 365 ∧ isLeap (year + 1) = true
  days_eq : days = era * 146097 + yearStart year + day - 719468
  ofDays_eq : Date.ofDays days =
    ⟨year + era * 400 + if (5 * day + 2) / 153 < 10 then 0 else 1,
      if (5 * day + 2) / 153 < 10 then (5 * day + 2) / 153 + 3 else (5 * day + 2) / 153 - 9,
      day - (153 * ((5 * day + 2) / 153) + 2) / 5 + 1⟩

private theorem exists_split (days : Int) : ∃ era y d, Split days era y d := by
  have hera : (days + 719468).fdiv 146097 = (days + 719468) / 146097 :=
    Int.fdiv_eq_ediv_of_nonneg _ (by decide)
  obtain ⟨e,he⟩ : ∃ e : Nat, days + 719468 - (days + 719468) / 146097 * 146097 = e :=
    ⟨(days + 719468 - (days + 719468) / 146097 * 146097).toNat,by omega⟩
  have hlt : e < 146097 := by omega
  obtain ⟨hyear,hstart,hnext⟩ := year_of_leapless hlt
  generalize hy : leapless e / 365 = y at hyear hstart hnext
  have hyoe : ((e : Int) - e / 1460 + e / 36524 - e / 146096) / 365 = y := by
    rw [leapless] at hy
    omega
  obtain ⟨d,hd⟩ : ∃ d : Nat, e = yearStart y + d := ⟨e - yearStart y,by omega⟩
  have hdoy : (e : Int) - (365 * y + y / 4 - y / 100) = d := by
    rw [yearStart] at hd
    omega
  have hleap : d ≤ 364 ∨ d = 365 ∧ isLeap (y + 1) = true := by
    rw [isLeap_iff]
    by_cases hless : y < 399
    · have hbound := hnext hless
      rw [yearStart_succ] at hbound
      split at hbound <;> omega
    · rw [yearStart] at hd
      omega
  refine ⟨(days + 719468) / 146097,y,d,hyear,hleap,?_,?_⟩
  · omega
  · generalize hm : (5 * d + 2) / 153 = m
    have hm' : (5 * (d : Int) + 2) / 153 = m := by omega
    simp only [Date.ofDays, hera, he, hyoe, hdoy, hm', Date.mk.injEq]
    refine ⟨?_,?_,?_⟩
    · split <;> split <;> omega
    · split <;> split <;> omega
    · omega

structure Date.Valid (d : Date) : Prop where
  month_pos : 1 ≤ d.month
  month_le : d.month ≤ 12
  day_pos : 1 ≤ d.day
  day_le : d.day ≤ daysInMonth d.year d.month

theorem Date.valid_ofDays (days : Int) : (ofDays days).Valid := by
  obtain ⟨era,y,d,hy,hleap,-,hdate⟩ := exists_split days
  rw [hdate]
  generalize hm : (5 * d + 2) / 153 = m
  have hlt : m < 12 := by omega
  refine ⟨?_,?_,by simp,?_⟩
  · simp only
    split <;> omega
  · simp only
    split <;> omega
  · rcases hleap with hless | ⟨rfl,hnext⟩
    · interval_cases m <;> simp [daysInMonth] <;> (try split) <;> omega
    · obtain rfl : m = 11 := by omega
      have hfeb : isLeap (y + era * 400 + 1) = true := by
        rw [isLeap_iff] at hnext ⊢
        omega
      simp [daysInMonth, hfeb]

theorem Date.toDays_ofDays (days : Int) : (ofDays days).toDays = days := by
  obtain ⟨era,y,d,hy,hleap,hdays,hdate⟩ := exists_split days
  have hera : ∀ n : Int, n.fdiv 400 = n / 400 := fun n =>
    Int.fdiv_eq_ediv_of_nonneg n (by decide)
  have hdiv : ((y : Int) + era * 400) / 400 = era := by omega
  have hsub : (y : Int) + era * 400 - era * 400 = y := by omega
  rw [hdate]
  generalize hm : (5 * d + 2) / 153 = m
  rw [yearStart] at hdays
  by_cases hten : m < 10
  · have hmonth : ¬m + 3 ≤ 2 := by omega
    simp only [toDays, hten, if_true, hmonth, if_false, hera, Int.add_zero, hdiv, hsub]
    omega
  · have hmonth : m - 9 ≤ 2 := by omega
    simp only [toDays, hten, if_false, hmonth, if_true, hera, Int.add_sub_cancel, hdiv, hsub]
    omega

private theorem toDays_first : Date.toDays ⟨1, 1, 1⟩ = -719162 := by decide

private theorem toDays_last : Date.toDays ⟨10000, 1, 1⟩ = 2932897 := by decide

/-- The days from the start of the year 1 to the end of the year 9999 have such years. -/
theorem Date.year_ofDays (days : Int) (hfirst : toDays ⟨1, 1, 1⟩ ≤ days)
    (hlast : days < toDays ⟨10000, 1, 1⟩) :
    1 ≤ (ofDays days).year ∧ (ofDays days).year ≤ 9999 := by
  obtain ⟨era,y,d,hy,hleap,hdays,hdate⟩ := exists_split days
  rw [toDays_first] at hfirst
  rw [toDays_last] at hlast
  rw [yearStart] at hdays
  rw [hdate]
  constructor
  · simp only
    split <;> omega
  · simp only
    split <;> omega

section Numerals
variable {k w n : Nat} {rest : List Char}

def NoDigitFirst (cs : List Char) : Prop := ∀ c ∈ cs.head?, c.isDigit = false

private theorem noDigitFirst_cons {c : Char} (h : c.isDigit = false) :
    NoDigitFirst (c :: rest) := by
  simpa [NoDigitFirst] using h

private theorem length_padded (hk : 0 < k) (hn : n < 10 ^ k) : (padded k n).length = k := by
  have hlen := (Nat.length_toDigits_le_iff (b := 10) (by decide) hk).2 hn
  simp only [padded, List.length_append, List.length_replicate]
  omega

private theorem isDigit_of_mem_padded {c : Char} (h : c ∈ padded k n) : c.isDigit = true := by
  rw [padded, List.mem_append] at h
  rcases h with h | h
  · rw [List.eq_of_mem_replicate h]
    rfl
  · exact Nat.isDigit_of_mem_toDigits (by decide) (by decide) h

private theorem value_padded :
    (padded k n).foldl (fun n c => n * 10 + (c.toNat - '0'.toNat)) 0 = n := by
  have hvalue : Nat.ofDigitChars 10 (padded k n) 0 = n := by
    simp [padded, Nat.ofDigitChars_append, Nat.ofDigitChars_replicate_zero]
  simpa only [Nat.ofDigitChars_eq_foldl, Nat.mul_comm] using hvalue

private theorem exists_padded_append (k n : Nat) (rest : List Char) :
    ∃ c cs, padded k n ++ rest = c :: cs ∧ c.isDigit = true := by
  cases hcons : padded k n with
  | nil => simp [padded, Nat.toDigits_ne_nil] at hcons
  | cons c cs => exact ⟨c,cs ++ rest,rfl,isDigit_of_mem_padded (hcons ▸ List.mem_cons_self)⟩

private theorem takeWhile_padded (hk : 0 < k) (hkw : k ≤ w) (hn : n < 10 ^ k)
    (hrest : NoDigitFirst rest) :
    ((padded k n ++ rest).take w).takeWhile Char.isDigit = padded k n := by
  have hlen := length_padded hk hn
  rw [List.take_append, List.take_of_length_le (by omega),
    List.takeWhile_append_of_pos fun c hc => isDigit_of_mem_padded hc]
  cases rest with
  | nil => simp
  | cons c cs =>
    have hc : c.isDigit = false := hrest c rfl
    cases w - (padded k n).length with
    | zero => simp
    | succ j => simp [hc]

private theorem number_padded (hk : 0 < k) (hkw : k ≤ w) (hn : n < 10 ^ k) (hfit : n < 2 ^ 63)
    (hrest : NoDigitFirst rest) : number w (padded k n ++ rest) = .ok (n, rest) := by
  have hne : padded k n ≠ [] := by simp [padded, Nat.toDigits_ne_nil]
  rw [number, takeWhile_padded hk hkw hn hrest, value_padded]
  · simp only [List.isEmpty_iff, hne, if_false, List.drop_left]
    exact if_pos hfit
  · simp [hne]

private theorem isBlank_of_isDigit {c : Char} (h : c.isDigit = true) : Text.isBlank c = false := by
  simp only [Char.isDigit, Bool.and_eq_true, decide_eq_true_eq, ge_iff_le,
    UInt32.le_iff_toNat_le] at h
  have hlow : 48 ≤ c.toNat := h.1
  have hhigh : c.toNat ≤ 57 := h.2
  rw [← Char.ofNat_toNat c]
  interval_cases c.toNat <;> rfl

private theorem trimStart_padded :
    Text.trimStart (padded k n ++ rest) = padded k n ++ rest := by
  obtain ⟨c,cs,hcons,hc⟩ := exists_padded_append k n rest
  simp [hcons, Text.trimStart, isBlank_of_isDigit hc]

private theorem ok_bind {α β : Type} (a : α) (f : α → Except Fault β) :
    (Except.ok a >>= f) = f a := by
  simp only [bind, Except.bind]

private theorem ranged_padded {low high : Nat} (hlow : low ≤ n) (hhigh : n ≤ high)
    (hn : n < 100) (hrest : NoDigitFirst rest) :
    ranged low high (padded 2 n ++ rest) = .ok (n, rest) := by
  have hnumber : number 2 (padded 2 n ++ rest) = .ok (n, rest) :=
    number_padded (by decide) le_rfl hn (by omega) hrest
  simp only [ranged, trimStart_padded, hnumber, ok_bind, hlow, hhigh, and_self, if_true]

private theorem year_renderYear {y : Int} (hpos : 0 ≤ y) (hle : y ≤ 9999)
    (hrest : NoDigitFirst rest) : year (renderYear y ++ rest) = .ok (y, rest) := by
  lift y to Nat using hpos
  have hrender : renderYear y = padded 4 y := by simp [renderYear, hle]
  have hnumber : number 4 (padded 4 y ++ rest) = .ok (y, rest) :=
    number_padded (by decide) le_rfl (by omega) (by omega) hrest
  obtain ⟨c,cs,hcons,hc⟩ := exists_padded_append 4 y rest
  rw [hrender, year, trimStart_padded, hcons]
  rw [hcons] at hnumber
  -- A digit is neither sign, so the year has four digits.
  split
  · next h =>
    obtain ⟨rfl,-⟩ := List.cons.inj h
    exact absurd hc (by decide)
  · next h =>
    obtain ⟨rfl,-⟩ := List.cons.inj h
    exact absurd hc (by decide)
  · have hfit : -2147483648 ≤ (y : Int) ∧ (y : Int) < 2147483648 := by omega
    simp only [hnumber, ok_bind, pure_bind, if_pos hfit]

private theorem literal_cons {c : Char} (hc : Text.isBlank c = false) :
    literal c (c :: rest) = .ok rest := by
  simp [literal, Text.trimStart, hc]

private theorem fraction_padded (hk : 0 < k) (hle : k ≤ 9) (hn : n < 10 ^ k) :
    fraction ('.' :: padded k n ++ 'Z' :: rest) = .ok (n * 10 ^ (9 - k), 'Z' :: rest) := by
  have hbound : n < 10 ^ 9 := lt_of_lt_of_le hn (Nat.pow_le_pow_right (by decide) hle)
  have hrest : NoDigitFirst ('Z' :: rest) := noDigitFirst_cons rfl
  have hnumber := number_padded hk hle hn (by omega) hrest
  rw [List.cons_append, fraction, hnumber, ok_bind]
  simp [length_padded hk hn]

private theorem fraction_renderFraction (hn : n < 1000000000) :
    fraction (renderFraction n ++ 'Z' :: rest) = .ok (n, 'Z' :: rest) := by
  rw [renderFraction]
  split
  · next hzero => simp [fraction, hzero]
  · split
    · next hmillis =>
      rw [fraction_padded (by decide) (by decide) (by omega),
        show n / 1000000 * 10 ^ (9 - 3) = n by omega]
    · split
      · next hmicros =>
        rw [fraction_padded (by decide) (by decide) (by omega),
          show n / 1000 * 10 ^ (9 - 6) = n by omega]
      · rw [fraction_padded (by decide) (by decide) (by omega),
          show n * 10 ^ (9 - 9) = n by omega]

end Numerals

structure Ordinary (t : Timestamp) : Prop where
  nanos_lt : t.nanos < 1000000000
  first_le : Date.toDays ⟨1, 1, 1⟩ * 86400 ≤ t.seconds
  lt_last : t.seconds < Date.toDays ⟨10000, 1, 1⟩ * 86400

private theorem noDigitFirst_renderFraction (nanos : Nat) :
    NoDigitFirst (renderFraction nanos ++ ['Z']) := by
  rw [renderFraction]
  split
  · exact noDigitFirst_cons rfl
  · split
    · exact noDigitFirst_cons rfl
    · split <;> exact noDigitFirst_cons rfl

private theorem exists_clock (seconds : Int) : ∃ clock : Nat, seconds.fmod 86400 = clock ∧
    clock < 86400 ∧ seconds.fdiv 86400 * 86400 + clock = seconds := by
  rw [Int.fmod_eq_emod_of_nonneg _ (by decide), Int.fdiv_eq_ediv_of_nonneg _ (by decide)]
  exact ⟨(seconds % 86400).toNat,by omega,by omega,by omega⟩

private theorem daysInMonth_le (y : Int) (month : Nat) : daysInMonth y month ≤ 31 := by
  rw [daysInMonth]
  split
  · split <;> decide
  · split <;> decide

private theorem moment_eq {date : Date} (clock nanos : Nat) (hdate : date.Valid)
    (hyear : 1 ≤ date.year ∧ date.year ≤ 9999)
    (hfirst : Date.toDays ⟨1, 1, 1⟩ * 86400 ≤ date.toDays * 86400 + clock)
    (hlast : date.toDays * 86400 + clock < Date.toDays ⟨10000, 1, 1⟩ * 86400) :
    Reading.moment ⟨date, clock / 3600, clock / 60 % 60, clock % 60, nanos, 0⟩ =
      .ok ⟨date.toDays * 86400 + clock, nanos⟩ := by
  rw [toDays_first] at hfirst
  rw [toDays_last] at hlast
  have hfirstDay : firstDay = -96465292 := by decide
  have hlastDay : lastDay = 95026236 := by decide
  have hday := hdate.day_le
  have hsecond : ¬clock % 60 = 60 := by omega
  have htime : clock / 3600 * 3600 + clock / 60 % 60 * 60 + clock % 60 = clock := by omega
  rw [Reading.moment, if_neg (by simp only; omega), if_neg (by simp)]
  simp only [if_neg hsecond, Nat.sub_zero, htime, Int.sub_zero, Nat.zero_mul, Nat.add_zero]
  rw [if_neg (by omega)]

/-- Reading a written moment gives it back. -/
theorem parse_render {t : Timestamp} (h : t.Ordinary) : parse t.render = .ok t := by
  obtain ⟨seconds,nanos⟩ := t
  obtain ⟨hnanos,hfirst,hlast⟩ := h
  simp only at hnanos hfirst hlast
  obtain ⟨clock,hclock,hlt,hseconds⟩ := exists_clock seconds
  have hdate := Date.valid_ofDays (seconds.fdiv 86400)
  have hyear := Date.year_ofDays (seconds.fdiv 86400) (by omega) (by omega)
  have hdays := Date.toDays_ofDays (seconds.fdiv 86400)
  have hleap : nanos / 1000000000 = 0 := Nat.div_eq_of_lt hnanos
  have hmod : nanos % 1000000000 = nanos := Nat.mod_eq_of_lt hnanos
  simp only [render, hclock, hleap, hmod, Int.toNat_natCast, Nat.add_zero, List.append_assoc,
    List.cons_append]
  generalize Date.ofDays (seconds.fdiv 86400) = date at hdate hyear hdays
  have hday := le_trans hdate.day_le (daysInMonth_le _ _)
  have hmonth := hdate.month_le
  have hmoment := moment_eq clock nanos hdate hyear (by omega) (by omega)
  rw [parse, String.toList_ofList,
    year_renderYear (by omega) hyear.2 (noDigitFirst_cons rfl), ok_bind]
  simp only
  rw [literal_cons rfl, ok_bind,
    ranged_padded hdate.month_pos hmonth (by omega) (noDigitFirst_cons rfl), ok_bind]
  simp only
  rw [literal_cons rfl, ok_bind,
    ranged_padded hdate.day_pos hday (by omega) (noDigitFirst_cons rfl), ok_bind]
  simp only
  rw [show ∀ cs, separator ('T' :: cs) = .ok cs from fun _ => rfl, ok_bind,
    ranged_padded (Nat.zero_le _) (by omega) (by omega) (noDigitFirst_cons rfl), ok_bind]
  simp only
  rw [literal_cons rfl, ok_bind,
    ranged_padded (Nat.zero_le _) (by omega) (by omega) (noDigitFirst_cons rfl), ok_bind]
  simp only
  rw [literal_cons rfl, ok_bind,
    ranged_padded (Nat.zero_le _) (by omega) (by omega) (noDigitFirst_renderFraction nanos),
    ok_bind]
  simp only
  rw [fraction_renderFraction hnanos, ok_bind]
  simp only
  rw [show offset (Text.trimStart ['Z']) = .ok (0, []) from rfl, ok_bind]
  rw [← hseconds, ← hdays]
  exact hmoment

end DocSnapshot.Timestamp
