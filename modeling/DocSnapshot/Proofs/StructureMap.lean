import DocSnapshot.Proofs.OrderedMap
import DocSnapshot.StructureMap.Basic

/-! What a structure map holds. Adding a source touches only the entries on its way, and a map of
sources none of which leads to a directory of another has one file for each of them. -/
namespace DocSnapshot

namespace StructureEntry
open OrderedMap (Increasing)

mutual
def Ordered : StructureEntry → Prop
  | .file _ => True
  | .directory entries => Increasing entries ∧ OrderedAll entries

def OrderedAll : List (String × StructureEntry) → Prop
  | [] => True
  | (_, e) :: rest => e.Ordered ∧ OrderedAll rest
end

def OrderedBelow (entries : List (String × StructureEntry)) : Prop :=
  Increasing entries ∧ ∀ e ∈ entries, e.2.Ordered

theorem orderedAll_iff (entries : List (String × StructureEntry)) :
    OrderedAll entries ↔ ∀ e ∈ entries, e.2.Ordered := by
  induction entries with
  | nil => simp [OrderedAll]
  | cons first rest ih => simp [OrderedAll, ih]

theorem ordered_directory (entries : List (String × StructureEntry)) :
    (StructureEntry.directory entries).Ordered ↔ OrderedBelow entries := by
  rw [Ordered, orderedAll_iff, OrderedBelow]

theorem orderedBelow_nil : OrderedBelow [] := ⟨List.Pairwise.nil,by simp⟩

theorem find?_nil (path : List String) : find? path [] = none := by
  rcases path with _ | ⟨s,_ | ⟨t,rest⟩⟩ <;> simp [find?, OrderedMap.get?]

theorem find?_cons {s : String} {rest : List String} (hrest : rest ≠ [])
    (entries : List (String × StructureEntry)) :
    find? (s :: rest) entries =
      find? rest (((OrderedMap.get? s entries).map children).getD []) := by
  rw [find?]
  · obtain ⟨t,rest,rfl⟩ := List.exists_cons_of_ne_nil hrest
    cases OrderedMap.get? s entries with
    | none => cases rest <;> simp [find?, OrderedMap.get?]
    | some e =>
      cases e with
      | file record => cases rest <;> simp [find?, children, OrderedMap.get?]
      | directory inner => simp [children]
  · exact hrest

theorem insert_cons (record : String) {s : String} {rest : List String} (hrest : rest ≠ [])
    (entries : List (String × StructureEntry)) :
    insert record (s :: rest) entries = OrderedMap.set s
      (.directory (insert record rest (((OrderedMap.get? s entries).map children).getD [])))
      entries := by
  rw [insert]
  exact hrest

private theorem find?_congr {s : String} {entries others : List (String × StructureEntry)}
    (h : OrderedMap.get? s entries = OrderedMap.get? s others) (rest : List String) :
    find? (s :: rest) entries = find? (s :: rest) others := by
  by_cases hrest : rest = []
  · rw [hrest, find?, find?, h]
  · rw [find?_cons hrest, find?_cons hrest, h]

/-- Nothing off the way of a source changes. -/
theorem find?_insert_of_not_prefix (record : String) {p q : List String} (h : ¬q <+: p)
    (entries : List (String × StructureEntry)) :
    find? q (insert record p entries) = find? q entries := by
  induction p generalizing q entries with
  | nil => rw [insert]
  | cons s rest ih =>
    obtain ⟨t,down,rfl⟩ : ∃ t down, q = t :: down :=
      List.exists_cons_of_ne_nil fun hq => h (hq ▸ List.nil_prefix)
    by_cases hts : s = t
    · subst hts
      have hdown : ¬down <+: rest := fun hp => h (List.cons_prefix_cons.mpr ⟨rfl,hp⟩)
      have hne : down ≠ [] := fun hnil => hdown (hnil ▸ List.nil_prefix)
      by_cases hrest : rest = []
      · subst hrest
        rw [find?_cons hne, find?_cons hne, insert]
        split
        · rfl
        · next hfile =>
          rw [OrderedMap.get?_set, if_pos rfl]
          cases hget : OrderedMap.get? s entries with
          | none => rfl
          | some e =>
            cases e with
            | file old => rfl
            | directory inner => exact (hfile inner hget).elim
      · rw [insert_cons record hrest, find?_cons hne, find?_cons hne, OrderedMap.get?_set,
          if_pos rfl]
        exact ih hdown _
    · refine find?_congr ?_ down
      by_cases hrest : rest = []
      · subst hrest
        rw [insert]
        split
        · rfl
        · rw [OrderedMap.get?_set, if_neg hts]
      · rw [insert_cons record hrest, OrderedMap.get?_set, if_neg hts]

/-- On the way of a source there are directories. -/
theorem find?_insert_of_prefix (record : String) {p q : List String} (hq : q ≠ []) (h : q <+: p)
    (hne : q ≠ p) (entries : List (String × StructureEntry)) :
    ∃ inner, find? q (insert record p entries) = some (.directory inner) := by
  induction p generalizing q entries with
  | nil => exact (hq (List.prefix_nil.mp h)).elim
  | cons s rest ih =>
    obtain ⟨t,down,rfl⟩ := List.exists_cons_of_ne_nil hq
    obtain ⟨rfl,hdown⟩ := List.cons_prefix_cons.mp h
    have hless : down ≠ rest := fun heq => hne (heq ▸ rfl)
    have hrest : rest ≠ [] := by
      rintro rfl
      exact hless (List.prefix_nil.mp hdown)
    rw [insert_cons record hrest]
    by_cases hnil : down = []
    · rw [hnil, find?, OrderedMap.get?_set, if_pos rfl]
      exact ⟨_,rfl⟩
    · rw [find?_cons hnil, OrderedMap.get?_set, if_pos rfl]
      exact ih hnil hdown hless _

/-- A source stands where it leads to, unless a directory stood there. -/
theorem find?_insert_self (record : String) {p : List String} (hp : p ≠ [])
    (entries : List (String × StructureEntry)) :
    find? p (insert record p entries) =
      match find? p entries with
      | some (.directory inner) => some (.directory inner)
      | _ => some (.file record) := by
  induction p generalizing entries with
  | nil => exact (hp rfl).elim
  | cons s rest ih =>
    by_cases hrest : rest = []
    · subst hrest
      rw [insert, find?]
      split
      · next inner hget => simp [find?, hget]
      · next hfile =>
        rw [find?, OrderedMap.get?_set, if_pos rfl]
        split
        · next inner hget => exact (hfile inner hget).elim
        · rfl
    · rw [insert_cons record hrest, find?_cons hrest, find?_cons hrest, OrderedMap.get?_set,
        if_pos rfl]
      exact ih hrest _

theorem OrderedBelow.children {entries : List (String × StructureEntry)}
    (h : OrderedBelow entries) (s : String) :
    OrderedBelow (((OrderedMap.get? s entries).map children).getD []) := by
  cases hget : OrderedMap.get? s entries with
  | none => exact orderedBelow_nil
  | some e =>
    have he := h.2 _ ((h.1.mem_iff s e).mpr hget)
    cases e with
    | file record => exact ⟨List.Pairwise.nil,by simp [StructureEntry.children]⟩
    | directory inner => exact (ordered_directory inner).mp he

theorem OrderedBelow.set {entries : List (String × StructureEntry)}
    (h : OrderedBelow entries) {s : String} {e : StructureEntry} (he : e.Ordered) :
    OrderedBelow (OrderedMap.set s e entries) := by
  refine ⟨h.1.set,fun f hf => ?_⟩
  rcases OrderedMap.mem_set hf with rfl | hf
  · exact he
  · exact h.2 f hf

theorem OrderedBelow.insert (record : String) (p : List String)
    {entries : List (String × StructureEntry)} (h : OrderedBelow entries) :
    OrderedBelow (StructureEntry.insert record p entries) := by
  induction p generalizing entries with
  | nil => rwa [StructureEntry.insert]
  | cons s rest ih =>
    by_cases hrest : rest = []
    · subst hrest
      rw [StructureEntry.insert]
      split
      · exact h
      · exact h.set trivial
    · rw [insert_cons record hrest]
      exact h.set ((ordered_directory _).mpr (ih (h.children s)))

/-- Of what the entries add up to, only the count of one name changes. -/
theorem fileCounts_set {entries : List (String × StructureEntry)}
    (h : OrderedMap.Increasing entries) (key : String) (e : StructureEntry) :
    fileCounts (OrderedMap.set key e entries) +
        ((OrderedMap.get? key entries).map fileCount).getD 0 = fileCounts entries + fileCount e := by
  induction entries with
  | nil => simp [OrderedMap.set, OrderedMap.get?, fileCounts]
  | cons first rest ih =>
    obtain ⟨k,b⟩ := first
    obtain ⟨hfirst,hrest⟩ := List.pairwise_cons.mp h
    rw [OrderedMap.set, OrderedMap.get?]
    split
    · next hk =>
      rw [if_pos hk.symm]
      simp only [fileCounts, Option.map_some, Option.getD_some]
      omega
    · next hk =>
      rw [if_neg (Ne.symm hk)]
      split
      · next hlt =>
        have hnone : OrderedMap.get? key rest = none := by
          cases hget : OrderedMap.get? key rest with
          | none => rfl
          | some c =>
            have hmem := (OrderedMap.Increasing.mem_iff hrest key c).mpr hget
            exact (String.lt_irrefl key (String.lt_trans hlt (hfirst _ hmem))).elim
        simp only [hnone, fileCounts, Option.map_none, Option.getD_none]
        omega
      · have hlater := ih hrest
        simp only [fileCounts]
        omega

/-- A source where nothing stood, on a way through directories, is one file more. -/
theorem fileCounts_insert (record : String) {p : List String} (hp : p ≠ [])
    {entries : List (String × StructureEntry)} (h : OrderedBelow entries)
    (hfree : find? p entries = none)
    (hway : ∀ q, q <+: p → ∀ old, find? q entries ≠ some (.file old)) :
    fileCounts (insert record p entries) = fileCounts entries + 1 := by
  induction p generalizing entries with
  | nil => exact (hp rfl).elim
  | cons s rest ih =>
    by_cases hrest : rest = []
    · subst hrest
      rw [find?] at hfree
      have hsum := fileCounts_set h.1 s (.file record)
      rw [hfree] at hsum
      rw [insert, hfree]
      simpa [fileCount] using hsum
    · have hinner := ih hrest (h.children s) (by rwa [find?_cons hrest] at hfree) ?_
      · rw [insert_cons record hrest]
        have hsum := fileCounts_set h.1 s
          (.directory (insert record rest (((OrderedMap.get? s entries).map children).getD [])))
        have hold : ((OrderedMap.get? s entries).map fileCount).getD 0 =
            fileCounts (((OrderedMap.get? s entries).map children).getD []) := by
          cases hget : OrderedMap.get? s entries with
          | none => rfl
          | some e =>
            cases e with
            | file old =>
              have hs : [s] <+: s :: rest := ⟨rest,rfl⟩
              exact (hway [s] hs old (by rw [find?, hget])).elim
            | directory inner => simp [fileCount, children]
        simp only [fileCount] at hsum
        omega
      · intro q hq old
        by_cases hnil : q = []
        · simp [hnil, find?]
        · rw [← find?_cons hnil]
          exact hway (s :: q) (List.cons_prefix_cons.mpr ⟨rfl,hq⟩) old

end StructureEntry

namespace StructureMap
open DocSnapshot.Path (segments recordPath)
open StructureEntry (find? OrderedBelow)

/-- Whether neither of two sources leads to the other or to a directory above it. -/
def Apart (source other : String) : Prop :=
  ¬segments source <+: segments other ∧ ¬segments other <+: segments source

/-- Whether a map holds some sources and nothing else. -/
structure Holds (m : StructureMap) (sources : List String) : Prop where
  ordered : OrderedBelow m.entries
  count : m.fileCount = sources.length
  file : ∀ source ∈ sources, m.get? source = some (.file (recordPath source))
  only : ∀ path e, find? path m.entries = some e → ∃ source ∈ sources,
    path <+: segments source ∧ (path = segments source ∨ e.isDirectory = true)

theorem holds_empty : empty.Holds [] := by
  refine ⟨StructureEntry.orderedBelow_nil,rfl,by simp,fun path e h => ?_⟩
  rw [empty, StructureEntry.find?_nil] at h
  cases h

theorem Holds.insert {m : StructureMap} {sources : List String} {source : String}
    (h : m.Holds sources) (hne : segments source ≠ [])
    (hapart : ∀ other ∈ sources, Apart source other) :
    (m.insert source).Holds (source :: sources) := by
  have hfree : find? (segments source) m.entries = none := by
    cases hfind : find? (segments source) m.entries with
    | none => rfl
    | some e =>
      obtain ⟨other,hother,hinit,-⟩ := h.only _ _ hfind
      exact ((hapart other hother).1 hinit).elim
  refine ⟨h.ordered.insert _ _,?_,?_,fun path e hfind => ?_⟩
  · refine (StructureEntry.fileCounts_insert _ hne h.ordered hfree ?_).trans
      (congrArg (· + 1) h.count)
    intro path hpath old hfind
    obtain ⟨other,hother,-,rfl | hdir⟩ := h.only _ _ hfind
    · exact (hapart other hother).2 hpath
    · cases hdir
  · intro other hother
    rcases List.mem_cons.mp hother with rfl | hother
    · rw [get?, StructureMap.insert, StructureEntry.find?_insert_self _ hne, hfree]
    · rw [get?, StructureMap.insert,
        StructureEntry.find?_insert_of_not_prefix _ (hapart other hother).2]
      exact h.file other hother
  · by_cases hinit : path <+: segments source
    · refine ⟨source,List.mem_cons_self,hinit,?_⟩
      by_cases heq : path = segments source
      · exact .inl heq
      · have hpath : path ≠ [] := by
          rintro rfl
          simp [find?] at hfind
        obtain ⟨inner,hinner⟩ := StructureEntry.find?_insert_of_prefix (recordPath source) hpath
          hinit heq m.entries
        rw [StructureMap.insert, hinner] at hfind
        cases hfind
        exact .inr rfl
    · rw [StructureMap.insert, StructureEntry.find?_insert_of_not_prefix _ hinit] at hfind
      obtain ⟨other,hother,hrest⟩ := h.only _ _ hfind
      exact ⟨other,List.mem_cons_of_mem _ hother,hrest⟩

end StructureMap

end DocSnapshot
