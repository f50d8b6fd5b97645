import DocSnapshot.Text.Utf8
import Mathlib.Data.Char
import Mathlib.Data.List.Pairwise
import Mathlib.Data.List.Sort
import Mathlib.Data.String.Basic

/-! The order of texts. Texts compare as their bytes do, and sorting texts without repetition gives
one list for each set of texts. -/
namespace DocSnapshot.Text

namespace Utf8

private theorem toList_loop (bytes : ByteArray) (i : Nat) (done : List UInt8) :
    ByteArray.toList.loop bytes i done = done.reverse ++ bytes.data.toList.drop i := by
  induction hn : bytes.size - i generalizing i done with
  | zero =>
    have hi : bytes.data.toList.length ≤ i := by
      rw [Array.length_toList, ByteArray.size_data]
      omega
    rw [ByteArray.toList.loop, if_neg (by omega), List.drop_eq_nil_of_le hi, List.append_nil]
  | succ n ih =>
    have hi : i < bytes.data.toList.length := by
      rw [Array.length_toList, ByteArray.size_data]
      omega
    have hget : bytes.get! i = bytes.data.toList[i] :=
      getElem!_pos bytes.data i (Array.length_toList ▸ hi)
    rw [ByteArray.toList.loop, if_pos (by omega), ih (i + 1) _ (by omega), hget,
      List.drop_eq_getElem_cons hi]
    simp

/-- The bytes of a text are those of its characters. -/
theorem encode_eq (s : String) : encode s = s.toList.flatMap String.utf8EncodeChar := by
  have hbytes : s.toUTF8 = (s.toList.flatMap String.utf8EncodeChar).toByteArray :=
    String.toUTF8_eq_toByteArray.trans String.utf8Encode_toList.symm
  rw [encode, ByteArray.toList, toList_loop, hbytes, List.toList_data_toByteArray]
  rfl

private theorem ofNat_lt {a b : Nat} : UInt8.ofNat a < UInt8.ofNat b ↔ a % 256 < b % 256 := by
  simp [UInt8.lt_iff_toNat_lt]

private theorem ofNat_eq {a b : Nat} : UInt8.ofNat a = UInt8.ofNat b ↔ a % 256 = b % 256 := by
  simp [← UInt8.toNat_inj]

private theorem encodeChar_lt {c d : Char} (h : c < d) (xs ys : List UInt8) :
    String.utf8EncodeChar c ++ xs < String.utf8EncodeChar d ++ ys := by
  have hlt : c.val.toNat < d.val.toNat := h
  have hd : d.val.toNat < 0x110000 := by
    rcases d.valid with hlow | hhigh
    · exact Nat.lt_trans hlow (by decide)
    · exact hhigh.2
  have hbits : ∀ n : Nat, n = n / 4096 * 4096 + n / 64 % 64 * 64 + n % 64 ∧
      n / 4096 = n / 262144 * 64 + n / 4096 % 64 := fun n => ⟨by omega,by omega⟩
  have hc := hbits c.val.toNat
  have hd' := hbits d.val.toNat
  have htail : ∀ n : Nat, (n % 64 + 128) % 256 = n % 64 + 128 := fun n => by omega
  have hlead : ∀ n < 0x110000, (n / 262144 % 8 + 240) % 256 = n / 262144 + 240 :=
    fun n hn => by omega
  -- sequences of unlike length differ at the first byte
  simp only [String.utf8EncodeChar]
  split <;> split <;> (try split) <;> (try split) <;> (try split) <;> (try split)
  all_goals
    simp only [List.cons_append, List.nil_append, List.cons_lt_cons_iff, ofNat_lt, ofNat_eq,
      htail, hlead _ hd, hlead _ (hlt.trans hd)]
  all_goals omega

private theorem encodeChars_lt {cs ds : List Char} (h : cs < ds) :
    cs.flatMap String.utf8EncodeChar < ds.flatMap String.utf8EncodeChar := by
  induction h with
  | @nil d ds =>
    obtain ⟨b,bs,hb⟩ := List.exists_cons_of_ne_nil (String.utf8EncodeChar_ne_nil (c := d))
    rw [List.flatMap_cons, hb]
    exact List.nil_lt_cons ..
  | @rel c cs d ds hcd => exact encodeChar_lt hcd _ _
  | @cons c cs ds _ ih =>
    rw [List.flatMap_cons, List.flatMap_cons]
    exact List.append_left_lt ih

/-- Texts are in the order of their bytes. -/
theorem encode_lt_encode_iff (s t : String) : encode s < encode t ↔ s < t := by
  have hmono : ∀ {s t : String}, s < t → encode s < encode t := by
    intro s t h
    rw [encode_eq, encode_eq]
    exact encodeChars_lt (String.lt_iff_toList_lt.mp h)
  refine ⟨fun h => ?_,hmono⟩
  by_contra hle
  rcases eq_or_lt_of_le (not_lt.mp hle) with rfl | hlt
  · exact List.lt_irrefl _ h
  · exact List.lt_asymm h (hmono hlt)

end Utf8

private theorem sublist_eraseDups (names : List String) : names.eraseDups.Sublist names := by
  induction hn : names.length using Nat.strongRecOn generalizing names with
  | _ n ih =>
    cases names with
    | nil => simp
    | cons name rest =>
      have hlen := List.length_filter_le (fun other => !other == name) rest
      rw [List.eraseDups_cons]
      refine List.Sublist.cons_cons name ((ih _ ?_ _ rfl).trans List.filter_sublist)
      rw [← hn, List.length_cons]
      omega

theorem nodup_eraseDups (names : List String) : names.eraseDups.Nodup := by
  induction hn : names.length using Nat.strongRecOn generalizing names with
  | _ n ih =>
    cases names with
    | nil => simp
    | cons name rest =>
      rw [List.eraseDups_cons, List.nodup_cons, List.mem_eraseDups]
      have hlen := List.length_filter_le (fun other => !other == name) rest
      refine ⟨by simp,ih _ ?_ _ rfl⟩
      rw [← hn, List.length_cons]
      omega

/-- Sorted texts without repetition strictly increase. -/
theorem pairwise_sorted (names : List String) :
    (names.mergeSort (· ≤ ·)).eraseDups.Pairwise (· < ·) := by
  have hsorted : (names.mergeSort (· ≤ ·)).Pairwise (· ≤ ·) :=
    (List.pairwise_mergeSort (fun _ _ _ => by simpa using String.le_trans)
      (fun a b => by simpa using String.le_total a b) names).imp (by simp)
  exact ((hsorted.sublist (sublist_eraseDups _)).and (nodup_eraseDups _)).imp fun h =>
    lt_of_le_of_ne h.1 h.2

theorem mem_sorted {names : List String} {name : String} :
    name ∈ (names.mergeSort (· ≤ ·)).eraseDups ↔ name ∈ names := by
  rw [List.mem_eraseDups, List.mem_mergeSort]

/-- Which texts there are decides how they are sorted without repetition. -/
theorem sorted_congr {names others : List String} (h : ∀ name, name ∈ names ↔ name ∈ others) :
    (names.mergeSort (· ≤ ·)).eraseDups = (others.mergeSort (· ≤ ·)).eraseDups :=
  (pairwise_sorted names).eq_of_mem_iff (pairwise_sorted others) fun name => by
    rw [mem_sorted, mem_sorted, h]

end DocSnapshot.Text
