import DocSnapshot.Proofs.StructureMap.RoundTrip

/-! What one more source changes in any structure map, however that came about: the entries on its
own way and nothing else, and at most one file more. -/
namespace DocSnapshot

theorem OrderedMap.Increasing.set_self {α : Type} {key : String} {a : α}
    {entries : List (String × α)} (h : Increasing entries) (hget : get? key entries = some a) :
    OrderedMap.set key a entries = entries := by
  refine h.set.ext h fun other => ?_
  rw [get?_set]
  split
  · next heq => rw [← heq, hget]
  · rfl

namespace StructureEntry

private theorem directory_of_find? {s : String} {rest : List String} (hrest : rest ≠ [])
    {entries : List (String × StructureEntry)} {e : StructureEntry}
    (h : find? (s :: rest) entries = some e) :
    ∃ inner, OrderedMap.get? s entries = some (.directory inner) ∧ find? rest inner = some e := by
  rw [find?_cons hrest] at h
  cases hget : OrderedMap.get? s entries with
  | none => simp [hget, find?_nil] at h
  | some found =>
    cases found with
    | file record => simp [hget, children, find?_nil] at h
    | directory inner => exact ⟨inner,rfl,by simpa [hget, children] using h⟩

/-- A source that leads to a directory changes nothing at all. -/
theorem insert_of_directory (record : String) {p : List String}
    {entries inner : List (String × StructureEntry)} (h : OrderedBelow entries)
    (hfind : find? p entries = some (.directory inner)) : insert record p entries = entries := by
  induction p generalizing entries with
  | nil => rw [insert]
  | cons s rest ih =>
    by_cases hrest : rest = []
    · subst hrest
      rw [find?] at hfind
      rw [insert, hfind]
    · obtain ⟨below,hget,hbelow⟩ := directory_of_find? hrest hfind
      have hsame : insert record rest below = below := by
        have hordered := OrderedBelow.children h s
        simp only [hget, Option.map_some, children, Option.getD_some] at hordered
        exact ih hordered hbelow
      rw [insert_cons record hrest, hget, Option.map_some, children, Option.getD_some, hsame]
      exact h.1.set_self hget

/-- Whether a source finds its place taken: by a file on its way or at its end, or by a directory at
its end. -/
def Taken (entries : List (String × StructureEntry)) (p : List String) : Prop :=
  (∃ inner, find? p entries = some (.directory inner)) ∨
    ∃ q record, q <+: p ∧ find? q entries = some (.file record)

/-- Where the place of a source is taken, it is no file more. -/
theorem fileCounts_insert_of_taken (record : String) {p : List String}
    {entries : List (String × StructureEntry)} (h : OrderedBelow entries)
    (htaken : Taken entries p) : fileCounts (insert record p entries) = fileCounts entries := by
  obtain ⟨inner,hfind⟩ | ⟨q,old,hq,hfind⟩ := htaken
  · rw [insert_of_directory record h hfind]
  induction p generalizing q entries with
  | nil => rw [insert]
  | cons s rest ih =>
    obtain ⟨t,down,rfl⟩ : ∃ t down, q = t :: down :=
      List.exists_cons_of_ne_nil fun hnil => by simp [hnil, find?] at hfind
    obtain ⟨rfl,hdown⟩ := List.cons_prefix_cons.mp hq
    by_cases hrest : rest = []
    · subst hrest
      obtain rfl := List.prefix_nil.mp hdown
      rw [find?] at hfind
      have hsum := fileCounts_set h.1 t (.file record)
      rw [hfind] at hsum
      rw [insert, hfind]
      simpa [fileCount] using hsum
    · rw [insert_cons record hrest]
      have hsum := fileCounts_set h.1 t (.directory
        (insert record rest (((OrderedMap.get? t entries).map children).getD [])))
      by_cases hnil : down = []
      · -- the file on the way gives room to a directory with the new file in it
        subst hnil
        rw [find?] at hfind
        have hnew := fileCounts_insert record hrest orderedBelow_nil (find?_nil rest)
          fun q _ old => by simp [find?_nil]
        simp only [hfind, Option.map_some, children, Option.getD_some, fileCount, hnew,
          fileCounts] at hsum ⊢
        omega
      · obtain ⟨below,hget,hbelow⟩ := directory_of_find? hnil hfind
        have hordered := OrderedBelow.children h t
        simp only [hget, Option.map_some, children, Option.getD_some] at hordered
        have hinner := ih hordered down hdown hbelow
        simp only [hget, Option.map_some, children, Option.getD_some, fileCount, hinner] at hsum ⊢
        omega

end StructureEntry

namespace StructureMap
open DocSnapshot.Path (segments recordPath)
open StructureEntry (find? OrderedBelow Taken)

/-- Adding a source touches only its own path. Nothing changes where its way does not lead, and
nothing at all if it has no segment or leads to a directory; directories stand on its way, and at
its end a file. There is one file more exactly if its place was not taken. -/
theorem insert_touches_own_path {m : StructureMap} (h : OrderedBelow m.entries) (source : String) :
    (segments source = [] → m.insert source = m) ∧
    (segments source ≠ [] →
      (∀ path, segments path ≠ [] →
        (¬segments path <+: segments source → (m.insert source).get? path = m.get? path) ∧
        (Above (segments path) (segments source) →
          ∃ inner, (m.insert source).get? path = some (.directory inner))) ∧
      ((∃ inner, m.get? source = some (.directory inner)) → m.insert source = m) ∧
      ((∀ inner, m.get? source ≠ some (.directory inner)) →
        (m.insert source).get? source = some (.file (recordPath source))) ∧
      (¬Taken m.entries (segments source) →
        (m.insert source).fileCount = m.fileCount + 1)) ∧
    (Taken m.entries (segments source) → (m.insert source).fileCount = m.fileCount) ∧
    m.fileCount ≤ (m.insert source).fileCount := by
  have hgrown (hne : segments source ≠ []) (hfree : ¬Taken m.entries (segments source)) :
      (m.insert source).fileCount = m.fileCount + 1 := by
    refine StructureEntry.fileCounts_insert _ hne h ?_ fun q hq old hfile => ?_
    · cases hfind : find? (segments source) m.entries with
      | none => rfl
      | some e =>
        cases e with
        | file old => exact (hfree (.inr ⟨_,old,List.prefix_refl _,hfind⟩)).elim
        | directory inner => exact (hfree (.inl ⟨inner,hfind⟩)).elim
    · exact hfree (.inr ⟨q,old,hq,hfile⟩)
  have hkept (htaken : Taken m.entries (segments source)) :
      (m.insert source).fileCount = m.fileCount :=
    StructureEntry.fileCounts_insert_of_taken _ h htaken
  have hnothing (hnil : segments source = []) : m.insert source = m := by
    rw [StructureMap.insert, hnil, StructureEntry.insert]
  refine ⟨hnothing,fun hne => ⟨fun path hpath => ⟨?_,?_⟩,?_,fun hfree => ?_,hgrown hne⟩,hkept,?_⟩
  · exact fun hoff => StructureEntry.find?_insert_of_not_prefix _ hoff m.entries
  · exact fun hway => StructureEntry.find?_insert_of_prefix _ hpath hway.1 hway.2 m.entries
  · rintro ⟨inner,hfind⟩
    rw [StructureMap.insert, StructureEntry.insert_of_directory _ h hfind]
  · have hself := StructureEntry.find?_insert_self (recordPath source) hne m.entries
    rw [get?, StructureMap.insert, hself]
    split
    · next inner hfind => exact (hfree inner hfind).elim
    · rfl
  · by_cases hne : segments source = []
    · rw [hnothing hne]
    by_cases htaken : Taken m.entries (segments source)
    · rw [hkept htaken]
    · rw [hgrown hne htaken]
      exact Nat.le_succ _

/-- A map that was loaded, with an empty directory and with a file of any record, which a source
below it turns into a directory. -/
theorem insert_touches_own_path_loaded :
    ∃ m, ofText "\x7b\"a\":\x7b\x7d,\"b\":\"anything\"\x7d" = .ok m ∧ OrderedBelow m.entries ∧
      m.insert "/a/" = m ∧ (m.insert "b//c").get? "a" = m.get? "a" ∧
      (∃ inner, (m.insert "b//c").get? "b" = some (.directory inner)) ∧
      (m.insert "b//c").get? "b//c" = some (.file "b//c.json") ∧
      (m.insert "b//c").fileCount = m.fileCount ∧ (m.insert "a/x").fileCount = m.fileCount + 1 := by
  let m : StructureMap := ⟨[("a", .directory []), ("b", .file "anything")]⟩
  have hordered : OrderedBelow m.entries := by
    refine ⟨?_,by simp [m, StructureEntry.Ordered, StructureEntry.OrderedAll,
      OrderedMap.Increasing]⟩
    simp only [m, OrderedMap.Increasing]
    decide +kernel
  have hlevels : m.levels ≤ 127 := by
    simp [m, levels, StructureEntry.levelsOf, StructureEntry.levels]
  have hloaded : ofText "\x7b\"a\":\x7b\x7d,\"b\":\"anything\"\x7d" = .ok m := by
    have htext : String.ofList (Json.Writing.compact.text 0 m.toJson) =
        "\x7b\"a\":\x7b\x7d,\"b\":\"anything\"\x7d" := by decide +kernel
    rw [ofText, ← htext]
    exact (reads_read Json.Writing.compact hordered hlevels 0).whole
  have hdirectory := (insert_touches_own_path hordered "/a/").2.1 (by decide +kernel)
  have hbelow := insert_touches_own_path hordered "b//c"
  have hinside := (insert_touches_own_path hordered "a/x").2.1 (by decide +kernel)
  have hway := (hbelow.2.1 (by decide +kernel)).1
  have htaken : Taken m.entries (segments "b//c") :=
    .inr ⟨["b"],"anything",by decide +kernel,rfl⟩
  have hfree : ¬Taken m.entries (segments "a/x") := by
    have hpath : segments "a/x" = ["a", "x"] := by decide +kernel
    rw [hpath]
    rintro (⟨inner,hfind⟩ | ⟨q,record,hq,hfind⟩)
    · simp [m, find?, OrderedMap.get?] at hfind
    · rw [← List.mem_inits] at hq
      simp only [List.inits, List.map_cons, List.map_nil, List.mem_cons, List.not_mem_nil,
        or_false] at hq
      rcases hq with rfl | rfl | rfl <;> simp [m, find?, OrderedMap.get?] at hfind
  refine ⟨m,hloaded,hordered,hdirectory.2.1 ⟨[],rfl⟩,?_,?_,?_,hbelow.2.2.1 htaken,
    hinside.2.2.2 hfree⟩
  · exact (hway "a" (by decide +kernel)).1 (by decide +kernel)
  · exact (hway "b" (by decide +kernel)).2 (by decide +kernel)
  · have hnone : m.get? "b//c" = none := rfl
    exact (hbelow.2.1 (by decide +kernel)).2.2.1 (by simp [hnone])

end StructureMap

end DocSnapshot
