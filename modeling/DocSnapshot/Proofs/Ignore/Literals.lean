import DocSnapshot.Ignore.Glob
import DocSnapshot.Proofs.Text.Utf8

/-! Globs of literal characters. They match the path they spell and, behind a deep start, every path
whose last part they spell; that the bytes of a path are compared makes no difference. -/
namespace DocSnapshot.Ignore

namespace Token

private theorem mem_rests_literal {c : Char} {bytes rest : List UInt8} :
    rest ∈ rests (.literal c) bytes ↔ bytes = String.utf8EncodeChar c ++ rest := by
  have hbytes : bytesOf c = String.utf8EncodeChar c := by simp [bytesOf, Text.Utf8.encode_eq]
  rw [rests, hbytes]
  split
  · next hfront =>
    obtain ⟨after,hafter⟩ := List.isPrefixOf_iff_prefix.mp hfront
    rw [← hafter, List.drop_left, List.mem_singleton, List.append_cancel_left_eq, eq_comm]
  · next hfront =>
    refine iff_of_false (List.not_mem_nil) fun heq => hfront ?_
    exact List.isPrefixOf_iff_prefix.mpr ⟨rest,heq.symm⟩

private theorem mem_seqRests_literals {cs : List Char} {texts : List (List UInt8)}
    {rest : List UInt8} : rest ∈ seqRests (cs.map .literal) texts ↔
      cs.flatMap String.utf8EncodeChar ++ rest ∈ texts := by
  induction cs generalizing texts with
  | nil => rfl
  | cons c cs ih =>
    rw [List.map_cons, seqRests, ih, List.mem_eraseDups, List.mem_flatMap, List.flatMap_cons]
    simp [mem_rests_literal]

private theorem mem_slashRests_iff {cs : List Char} {rest : List UInt8} :
    rest ∈ slashRests (cs.flatMap String.utf8EncodeChar) ↔
      ∃ before after, cs = before ++ '/' :: after ∧
        rest = after.flatMap String.utf8EncodeChar := by
  have hskip (bytes more : List UInt8) (h : slash ∉ bytes) :
      slashRests (bytes ++ more) = slashRests more := by
    induction bytes with
    | nil => rfl
    | cons b bytes ih =>
      rw [List.mem_cons, not_or] at h
      rw [List.cons_append, slashRests, if_neg (Ne.symm h.1), ih h.2, List.nil_append]
  induction cs with
  | nil => simp [slashRests]
  | cons c cs ih =>
    have hfirst : (∃ before after, c :: cs = before ++ '/' :: after ∧
          rest = after.flatMap String.utf8EncodeChar) ↔
        c = '/' ∧ rest = cs.flatMap String.utf8EncodeChar ∨ ∃ before after,
          cs = before ++ '/' :: after ∧ rest = after.flatMap String.utf8EncodeChar := by
      constructor
      · rintro ⟨before,after,heq,hrest⟩
        cases before with
        | nil =>
          obtain ⟨rfl,rfl⟩ := List.cons.inj heq
          exact .inl ⟨rfl,hrest⟩
        | cons d before => exact .inr ⟨before,after,(List.cons.inj heq).2,hrest⟩
      · rintro (⟨rfl,hrest⟩ | ⟨before,after,rfl,hrest⟩)
        · exact ⟨[],cs,rfl,hrest⟩
        · exact ⟨c :: before,after,rfl,hrest⟩
    rw [hfirst, List.flatMap_cons]
    by_cases hc : c = '/'
    · have hbytes : String.utf8EncodeChar '/' = [slash] := rfl
      simp [hc, hbytes, slashRests, ih]
    · have hslash : slash ∉ String.utf8EncodeChar c := by
        rw [Text.Utf8.mem_encodeChar_iff (by decide)]
        exact fun hcode => hc (Char.ext (UInt32.toNat_inj.mp hcode))
      simp [hc, hskip _ _ hslash, ih]

end Token

namespace Glob
open Token (seqRests)

private theorem encode_eq_iff {cs : List Char} {path : String} :
    Text.Utf8.encode path = cs.flatMap String.utf8EncodeChar ↔ path.toList = cs := by
  rw [Text.Utf8.encode_eq]
  exact ⟨Text.Utf8.encodeChars_inj,fun h => by rw [h]⟩

/-- Literal characters match the path that they spell. -/
theorem matchesPath_literals {cs : List Char} {path : String} :
    matchesPath (cs.map .literal) path = true ↔ path.toList = cs := by
  have hname : isByName (cs.map .literal) = false := by
    cases cs <;> simp [isByName, Token.isLiteral]
  have hwhole : cs.map Token.literal ≠ [.deepStart] := by
    cases cs <;> simp
  rw [matchesPath]
  · rw [hname, Bool.false_and, Bool.not_false, Bool.true_and, List.contains_iff_mem,
      Token.mem_seqRests_literals, List.append_nil, List.mem_singleton, eq_comm, encode_eq_iff]
  · exact hwhole

/-- Behind a deep start, literal characters match the paths whose last part they spell. -/
theorem matchesPath_deepStart_literals {cs : List Char} {path : String} (hne : cs ≠ [])
    (hdot : cs.getLast? ≠ some '.') :
    matchesPath (.deepStart :: cs.map .literal) path = true ↔
      path.toList = cs ∨ ∃ before, path.toList = before ++ '/' :: cs := by
  have hmatch : [] ∈ seqRests (.deepStart :: cs.map .literal) [Text.Utf8.encode path] ↔
      path.toList = cs ∨ ∃ before, path.toList = before ++ '/' :: cs := by
    rw [seqRests, Token.mem_seqRests_literals, List.mem_eraseDups, List.append_nil,
      List.flatMap_singleton, Token.rests, List.mem_cons, eq_comm, encode_eq_iff,
      Text.Utf8.encode_eq, Token.mem_slashRests_iff]
    refine or_congr_right ⟨?_,?_⟩
    · rintro ⟨before,after,hpath,hbytes⟩
      rw [Text.Utf8.encodeChars_inj hbytes]
      exact ⟨before,hpath⟩
    · rintro ⟨before,hpath⟩
      exact ⟨before,cs,hpath,rfl⟩
  -- a glob looked up by name finds nothing in a path that ends with a period, and this one does not
  have hend (hpath : path.toList = cs ∨ ∃ before, path.toList = before ++ '/' :: cs) :
      path.toList.getLast? ≠ some '.' := by
    obtain ⟨c,rest,rfl⟩ := List.exists_cons_of_ne_nil hne
    rcases hpath with hpath | ⟨before,hpath⟩
    · rwa [hpath]
    · rwa [hpath, List.getLast?_append_of_ne_nil _ (by simp), List.getLast?_cons_cons]
  rw [matchesPath]
  · rw [Bool.and_eq_true, List.contains_iff_mem, hmatch]
    exact and_iff_right_of_imp fun hpath => by simp [hend hpath]
  · simpa using hne

end Glob

end DocSnapshot.Ignore
