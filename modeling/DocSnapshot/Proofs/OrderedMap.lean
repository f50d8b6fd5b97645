import DocSnapshot.Proofs.FileSystem.Kind

/-! Maps whose names strictly increase. Setting and erasing keep the order, and a name stands in
such a map once. -/
namespace DocSnapshot.OrderedMap

variable {α : Type}

def Increasing (entries : List (String × α)) : Prop := entries.Pairwise (·.1 < ·.1)

theorem mem_set {key : String} {a : α} {entries : List (String × α)} {e : String × α}
    (h : e ∈ set key a entries) : e = (key, a) ∨ e ∈ entries := by
  induction entries with
  | nil => exact .inl (List.mem_singleton.mp h)
  | cons first rest ih =>
    obtain ⟨k,b⟩ := first
    rw [set] at h
    split at h
    · rcases List.mem_cons.mp h with he | he
      · exact .inl he
      · exact .inr (List.mem_cons_of_mem _ he)
    · split at h
      · exact List.mem_cons.mp h
      · rcases List.mem_cons.mp h with he | he
        · exact .inr (he ▸ List.mem_cons_self)
        · exact (ih he).imp_right (List.mem_cons_of_mem _)

theorem Increasing.set {key : String} {a : α} {entries : List (String × α)}
    (h : Increasing entries) : Increasing (OrderedMap.set key a entries) := by
  induction entries with
  | nil => exact List.pairwise_singleton ..
  | cons first rest ih =>
    obtain ⟨k,b⟩ := first
    obtain ⟨hfirst,hrest⟩ := List.pairwise_cons.mp h
    rw [OrderedMap.set]
    split
    · next hk =>
      subst hk
      exact List.pairwise_cons.mpr ⟨hfirst,hrest⟩
    · next hk =>
      split
      · next hlt =>
        refine List.pairwise_cons.mpr ⟨fun e he => ?_,h⟩
        rcases List.mem_cons.mp he with rfl | he
        · exact hlt
        · exact String.lt_trans hlt (hfirst e he)
      · next hlt =>
        refine List.pairwise_cons.mpr ⟨fun e he => ?_,ih hrest⟩
        rcases mem_set he with rfl | he
        · exact Std.lt_of_le_of_ne hlt (Ne.symm hk)
        · exact hfirst e he

theorem Increasing.erase {entries : List (String × α)} (h : Increasing entries) (key : String) :
    Increasing (OrderedMap.erase key entries) :=
  h.filter _

theorem Increasing.mem_iff {entries : List (String × α)} (h : Increasing entries) (key : String)
    (a : α) : (key, a) ∈ entries ↔ get? key entries = some a := by
  induction entries with
  | nil => simp [get?]
  | cons first rest ih =>
    obtain ⟨k,b⟩ := first
    obtain ⟨hfirst,hrest⟩ := List.pairwise_cons.mp h
    rw [get?, List.mem_cons]
    split
    · next hk =>
      subst hk
      have hlater : (k, a) ∉ rest := fun hmem => String.lt_irrefl k (hfirst _ hmem)
      simp [hlater, eq_comm]
    · next hk => simp [Ne.symm hk, ih hrest]

theorem Increasing.nodup {entries : List (String × α)} (h : Increasing entries) :
    entries.Nodup := by
  refine List.Pairwise.imp ?_ h
  rintro a b hlt rfl
  exact String.lt_irrefl a.1 hlt

/-- What each name stands for decides the whole map. -/
theorem Increasing.ext {entries others : List (String × α)} (h : Increasing entries)
    (h' : Increasing others) (hget : ∀ key, get? key entries = get? key others) :
    entries = others := by
  have hasymm : ∀ a b : String × α, a.1 < b.1 → b.1 < a.1 → a = b := fun a b hab hba =>
    (String.lt_irrefl a.1 (String.lt_trans hab hba)).elim
  have hperm : entries.Perm others := by
    refine (List.perm_ext_iff_of_nodup h.nodup h'.nodup).mpr fun e => ?_
    rw [h.mem_iff e.1 e.2, h'.mem_iff e.1 e.2, hget]
  exact hperm.eq_of_pairwise (fun a b _ _ => hasymm a b) h h'

end DocSnapshot.OrderedMap
