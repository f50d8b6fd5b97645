import DocSnapshot.CommitSource
import DocSnapshot.Proofs.Text.Trim

/-! Commits read from what `git` prints of them: four fields with null characters between them, the
last one with whatever stands in it. Null characters are no blanks, so blanks around a field or
around all of them make no difference to the commit. -/
namespace DocSnapshot

namespace Commit
open DocSnapshot.Text

section Fields

variable {separator : Char} {s before after output hash author date message : List Char}

theorem cutAt_cons_eq_some_cons_iff {c d : Char} :
    cutAt separator (c :: s) = some (d :: before, after) ↔
      c ≠ separator ∧ c = d ∧ cutAt separator s = some (before, after) := by
  by_cases hc : c = separator
  · simp [cutAt, hc]
  · simp [cutAt, hc, and_comm]

theorem cutAt_cons_eq_some_nil_iff {c : Char} :
    cutAt separator (c :: s) = some ([], after) ↔ c = separator ∧ s = after := by
  by_cases hc : c = separator <;> simp [cutAt, hc]

theorem cutAt_eq_some_iff : cutAt separator s = some (before, after) ↔
    s = before ++ separator :: after ∧ separator ∉ before := by
  induction s generalizing before with
  | nil => simp [cutAt]
  | cons c s ih =>
    cases before with
    | nil => simp [cutAt_cons_eq_some_nil_iff]
    | cons d before =>
      rw [cutAt_cons_eq_some_cons_iff, ih, List.cons_append, List.cons.injEq, List.mem_cons, not_or]
      constructor
      · rintro ⟨hc,rfl,rfl,hbefore⟩
        exact ⟨⟨rfl,rfl⟩,Ne.symm hc,hbefore⟩
      · rintro ⟨⟨rfl,rfl⟩,hc,hbefore⟩
        exact ⟨Ne.symm hc,rfl,rfl,hbefore⟩

theorem fields?_eq_some_iff : fields? output = some (hash, author, date, message) ↔
    output = hash ++ '\x00' :: (author ++ '\x00' :: (date ++ '\x00' :: message)) ∧
      '\x00' ∉ hash ∧ '\x00' ∉ author ∧ '\x00' ∉ date := by
  simp [fields?, Option.bind_eq_some_iff, cutAt_eq_some_iff, and_assoc]

/-- There are fields exactly where there are enough null characters. -/
theorem isSome_fields?_iff : (fields? output).isSome ↔ 3 ≤ output.count '\x00' := by
  constructor
  · intro h
    obtain ⟨⟨hash,author,date,message⟩,hfields⟩ := Option.isSome_iff_exists.mp h
    rw [(fields?_eq_some_iff.mp hfields).1]
    simp only [List.count_append, List.count_cons_self]
    omega
  · intro h
    -- Each null character that is needed ends a field, and behind it there is one less.
    have cut {s : List Char} (hs : 0 < s.count '\x00') : ∃ before after,
        s = before ++ '\x00' :: after ∧ '\x00' ∉ before ∧
          s.count '\x00' = after.count '\x00' + 1 := by
      obtain ⟨before,after,rfl,hbefore⟩ := List.eq_append_cons_of_mem (List.count_pos_iff.mp hs)
      exact ⟨before,after,rfl,hbefore,by simp [List.count_eq_zero.mpr hbefore]⟩
    obtain ⟨hash,rest,rfl,hhash,hcount⟩ := cut (s := output) (by omega)
    obtain ⟨author,rest,rfl,hauthor,hcount'⟩ := cut (s := rest) (by omega)
    obtain ⟨date,message,rfl,hdate,-⟩ := cut (s := rest) (by omega)
    rw [fields?_eq_some_iff.mpr ⟨rfl,hhash,hauthor,hdate⟩]
    rfl

/-- Blanks around an output go to its first field and to its last one. -/
theorem fields?_append {front back : List Char} (hfront : ∀ c ∈ front, isBlank c = true)
    (hback : ∀ c ∈ back, isBlank c = true) :
    fields? (front ++ output ++ back) = (fields? output).map fun (hash, author, date, message) =>
      (front ++ hash, author, date, message ++ back) := by
  have hnull {s : List Char} (hs : ∀ c ∈ s, isBlank c = true) : '\x00' ∉ s := by
    intro hmem
    exact absurd (hs _ hmem) (by decide)
  cases hfields : fields? output with
  | none =>
    have hfew : ¬ 3 ≤ output.count '\x00' := by
      rw [← isSome_fields?_iff, hfields]
      simp
    rw [Option.map_none, ← Option.not_isSome_iff_eq_none, isSome_fields?_iff]
    simpa [List.count_eq_zero.mpr (hnull hfront), List.count_eq_zero.mpr (hnull hback)] using hfew
  | some fields =>
    obtain ⟨hash,author,date,message⟩ := fields
    obtain ⟨rfl,hhash,hauthor,hdate⟩ := fields?_eq_some_iff.mp hfields
    rw [Option.map_some, fields?_eq_some_iff]
    refine ⟨by simp,?_,hauthor,hdate⟩
    simp [hnull hfront, hhash]

end Fields

/-- The commit of an output, if it is one. -/
theorem toOption_parse (output : String) : (parse output).toOption =
    (fields? output.toList).bind fun (hash, author, date, message) =>
      if trim hash = [] then none
      else some (make (String.ofList (trim hash)) (String.ofList author)
        (String.ofList (trim date)) (String.ofList message)) := by
  rw [parse]
  cases fields? output.toList with
  | none => rfl
  | some fields =>
    obtain ⟨hash,author,date,message⟩ := fields
    simp only [List.isEmpty_iff, Option.bind_some]
    split <;> rfl

theorem parse_eq_ok_iff {output : String} {c : Commit} :
    parse output = .ok c ↔ (parse output).toOption = some c := by
  cases parse output <;> simp [Except.toOption]

/-- Blanks around an output make no difference to the commit. -/
theorem toOption_parse_append {s front back : List Char} (hfront : ∀ c ∈ front, isBlank c = true)
    (hback : ∀ c ∈ back, isBlank c = true) :
    (parse (String.ofList (front ++ s ++ back))).toOption =
      (parse (String.ofList s)).toOption := by
  have hhash (hash : List Char) : trim (front ++ hash) = trim hash := by
    simpa using trim_append (s := hash) hfront (List.forall_mem_nil _)
  have hmessage (message : List Char) : trim (message ++ back) = trim message := by
    simpa using trim_append (s := message) (List.forall_mem_nil _) hback
  rw [toOption_parse, toOption_parse, String.toList_ofList, String.toList_ofList,
    fields?_append hfront hback]
  cases fields? s with
  | none => rfl
  | some fields =>
    simp only [Option.map_some, Option.bind_some, hhash, make, String.toList_ofList, hmessage]

private theorem parse_intercalate {hash author date message : String} (hhash : '\x00' ∉ hash.toList)
    (hauthor : '\x00' ∉ author.toList) (hdate : '\x00' ∉ date.toList)
    (htext : trim hash.toList ≠ []) :
    parse ("\x00".intercalate [hash, author, date, message]) =
      .ok (make (trimmed hash) author (trimmed date) message) := by
  have hfields : fields? ("\x00".intercalate [hash, author, date, message]).toList =
      some (hash.toList, author.toList, date.toList, message.toList) := by
    rw [fields?_eq_some_iff, String.toList_intercalate]
    refine ⟨?_,hhash,hauthor,hdate⟩
    simp only [List.map_cons, List.map_nil, List.intercalate_cons_cons, List.intercalate_singleton,
      List.append_assoc]
    rfl
  rw [parse_eq_ok_iff, toOption_parse, hfields]
  simp only [Option.bind_some, if_neg htext, String.ofList_toList]
  rfl

theorem toOption_parse_trimmed (output : String) :
    (parse (trimmed output)).toOption = (parse output).toOption := by
  obtain ⟨⟨front,back,houtput,hfront,hback⟩,-⟩ :=
    trim_eq_iff.mp (rfl : trim output.toList = trim output.toList)
  conv_rhs => rw [← String.ofList_toList (s := output), houtput]
  exact (toOption_parse_append hfront hback).symm

end Commit

/-- A commit is read from what `git` prints of it without the blanks around that. -/
theorem GitProgram.toOption_commit {git : GitProgram} {rev : Option String} {hash : String}
    {out : GitOutput} (hresolve : git.resolve rev = .ok hash)
    (hshow : git ["show", "-s", "--format=%H%x00%an%x00%cI%x00%B", hash] = .ok out)
    (hcode : out.code = 0) :
    (git.commit rev).toOption = (Commit.parse (Text.trimmed out.stdout)).toOption := by
  have hquery : git.query ["show", "-s", "--format=%H%x00%an%x00%cI%x00%B", hash] =
      .ok (Text.trimmed out.stdout) := by
    rw [query, hshow]
    simp only [hcode, if_true]
    rfl
  simp only [commit, hresolve, bind, Except.bind, hquery]
  cases Commit.parse (Text.trimmed out.stdout) <;> rfl

namespace Commit
open DocSnapshot.Text

/-- An output is a commit exactly if it has three null characters and text in front of them. The
commit has the fields between them, all but the author without the blanks around it, and is the
same without the blanks around the whole output, which `git` is read without. -/
theorem parse_reads_fields :
    (∀ output : String, (∃ c, parse output = .ok c) ↔ 3 ≤ output.toList.count '\x00' ∧
      ∃ ch ∈ output.toList.takeWhile (· ≠ '\x00'), isBlank ch = false) ∧
    (∀ hash author date message : String, '\x00' ∉ hash.toList → '\x00' ∉ author.toList →
      '\x00' ∉ date.toList → (∃ ch ∈ hash.toList, isBlank ch = false) →
      ∃ c, parse ("\x00".intercalate [hash, author, date, message]) = .ok c ∧
        c.hash = trimmed hash ∧ c.author = author ∧ c.date = trimmed date ∧
        c.message = trimmed message ∧
        c.shortHash.toList <+: c.hash.toList ∧ c.shortHash.length = min 7 c.hash.length) ∧
    (∀ output : String, (parse (trimmed output)).toOption = (parse output).toOption) ∧
    ∀ (git : GitProgram) (rev : Option String) (hash : String) (out : GitOutput),
      git.resolve rev = .ok hash →
      git ["show", "-s", "--format=%H%x00%an%x00%cI%x00%B", hash] = .ok out → out.code = 0 →
      (git.commit rev).toOption = (parse out.stdout).toOption := by
  have htext (hash : List Char) : trim hash ≠ [] ↔ ∃ ch ∈ hash, isBlank ch = false := by
    simp [trim_eq_nil_iff]
  refine ⟨fun output => ?_,?_,toOption_parse_trimmed,?_⟩
  · simp only [parse_eq_ok_iff, toOption_parse]
    rw [← isSome_fields?_iff]
    cases hfields : fields? output.toList with
    | none => simp
    | some fields =>
      obtain ⟨hash,author,date,message⟩ := fields
      obtain ⟨houtput,hnull,-⟩ := fields?_eq_some_iff.mp hfields
      have hfirst : output.toList.takeWhile (· ≠ '\x00') = hash := by
        have hnot : ∀ ch ∈ hash, decide (ch ≠ '\x00') = true := by
          intro ch hch
          rw [decide_eq_true_eq]
          rintro rfl
          exact hnull hch
        rw [houtput, List.takeWhile_append_of_pos hnot]
        simp
      rw [hfirst, ← htext]
      by_cases htrim : trim hash = [] <;> simp [htrim]
  · intro hash author date message hhash hauthor hdate hblank
    refine ⟨_,parse_intercalate hhash hauthor hdate ((htext _).mpr hblank),rfl,rfl,rfl,rfl,?_,?_⟩
    · rw [make, String.toList_ofList]
      exact List.take_prefix _ _
    · rw [make, String.length_ofList, List.length_take, String.length_toList]
      rfl
  · intro git rev hash out hresolve hshow hcode
    rw [GitProgram.toOption_commit hresolve hshow hcode, toOption_parse_trimmed]

private def blankMessage : String :=
  "\x00".intercalate ["\n c0ffee1234567890", " Ada ", "2024-01-01T00:00:00+00:00 ", " \n\n"]

private def blankMessageGit : GitProgram
  | "show" :: _ => .ok ⟨0, blankMessage, ""⟩
  | _ => .ok ⟨0, "c0ffee1234567890\n", ""⟩

theorem parse_reads_fields_blank_message :
    '\x00' ∉ "\n c0ffee1234567890".toList ∧ '\x00' ∉ " Ada ".toList ∧
    '\x00' ∉ "2024-01-01T00:00:00+00:00 ".toList ∧
    (∃ ch ∈ "\n c0ffee1234567890".toList, isBlank ch = false) ∧
    blankMessageGit.resolve none = .ok "c0ffee1234567890" ∧
    (blankMessageGit.commit none).toOption = some {
      hash := "c0ffee1234567890", shortHash := "c0ffee1", author := " Ada ",
      date := "2024-01-01T00:00:00+00:00", message := "" } := by
  have hhash : '\x00' ∉ "\n c0ffee1234567890".toList := by decide
  have hauthor : '\x00' ∉ " Ada ".toList := by decide
  have hdate : '\x00' ∉ "2024-01-01T00:00:00+00:00 ".toList := by decide
  have htext : ∃ ch ∈ "\n c0ffee1234567890".toList, isBlank ch = false := ⟨'c',by decide,by decide⟩
  have hresolve : blankMessageGit.resolve none = .ok "c0ffee1234567890" := rfl
  obtain ⟨-,hfields,-,hcommit⟩ := parse_reads_fields
  obtain ⟨⟨_,shortHash,_,_,_⟩,hparse,hfull,hby,hon,hempty,hopens,hlength⟩ :=
    hfields _ _ _ " \n\n" hhash hauthor hdate htext
  dsimp only at hfull hby hon hempty hopens hlength
  rw [show trimmed "\n c0ffee1234567890" = "c0ffee1234567890" by decide] at hfull
  subst hfull hby hon hempty
  have hshort : shortHash = "c0ffee1" := by
    rw [List.prefix_iff_eq_take, String.length_toList, hlength] at hopens
    rw [← String.ofList_toList (s := shortHash), hopens]
    decide
  refine ⟨hhash,hauthor,hdate,htext,hresolve,?_⟩
  rw [hcommit blankMessageGit none _ ⟨0, blankMessage, ""⟩ hresolve rfl rfl, blankMessage, hparse,
    hshort]
  decide

end Commit

end DocSnapshot
