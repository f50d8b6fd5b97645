import DocSnapshot.Proofs.Sources
import Mathlib.Data.Finset.Card
import Mathlib.Data.Finset.Dedup

/-! What a structure map holds after any sources, added in any order. A path on the way to a source
is a directory, and a path that some sources lead to is the file of the last of them. Since such a
view decides a whole map, a map of sources does not depend on their order. -/
namespace DocSnapshot

namespace StructureEntry

def record? : StructureEntry → Option String
  | .file record => some record
  | .directory _ => none

def view (entries : List (String × StructureEntry)) (path : List String) :
    Option (Option String) :=
  (find? path entries).map record?

theorem view_nil (path : List String) : view [] path = none := by
  rw [view, find?_nil, Option.map_none]

private theorem view_cons {s : String} {rest : List String} (hrest : rest ≠ [])
    (entries : List (String × StructureEntry)) :
    view entries (s :: rest) = view (((OrderedMap.get? s entries).map children).getD []) rest := by
  rw [view, view, find?_cons hrest]

mutual
private theorem Ordered.ext : (e other : StructureEntry) → e.Ordered → other.Ordered →
    e.record? = other.record? → (∀ path, view e.children path = view other.children path) →
    e = other
  | .file record, .file record', _, _, hsame, _ => by
    cases hsame
    rfl
  | .file record, .directory entries, _, _, hsame, _ => by cases hsame
  | .directory entries, .file record, _, _, hsame, _ => by cases hsame
  | .directory entries, .directory others, h, h', _, hview => by
    rw [Ordered] at h h'
    refine congrArg directory (h.1.ext h'.1 fun key => ?_)
    have hkey := hview [key]
    simp only [view, find?, children] at hkey
    cases hget : OrderedMap.get? key entries with
    | none =>
      cases hget' : OrderedMap.get? key others with
      | none => rfl
      | some other => simp [hget, hget'] at hkey
    | some e =>
      cases hget' : OrderedMap.get? key others with
      | none => simp [hget, hget'] at hkey
      | some other =>
        have hbelow : ∀ path, view e.children path = view other.children path := by
          intro path
          by_cases hnil : path = []
          · rw [hnil, view, view, find?, find?]
          · have hpath := hview (key :: path)
            simpa [view_cons hnil, children, hget, hget'] using hpath
        have horder := (orderedAll_iff _).mp h'.2 _ ((h'.1.mem_iff key other).mpr hget')
        rw [OrderedAll.ext entries h.2 ((h.1.mem_iff key e).mpr hget) other horder
          (by simpa [hget, hget'] using hkey) hbelow]

private theorem OrderedAll.ext : (entries : List (String × StructureEntry)) → OrderedAll entries →
    ∀ {key e}, (key, e) ∈ entries → ∀ other : StructureEntry, other.Ordered →
    e.record? = other.record? → (∀ path, view e.children path = view other.children path) →
    e = other
  | [], _, _, _, hmem, _, _, _, _ => by simp at hmem
  | (name, first) :: rest, h, key, e, hmem, other, hother, hsame, hview => by
    rw [OrderedAll] at h
    rcases List.mem_cons.mp hmem with heq | hmem
    · cases heq
      exact Ordered.ext first other h.1 hother hsame hview
    · exact OrderedAll.ext rest h.2 hmem other hother hsame hview
end

/-- What stands where decides all entries of a level in order. -/
theorem OrderedBelow.ext {entries others : List (String × StructureEntry)}
    (h : OrderedBelow entries) (h' : OrderedBelow others)
    (hview : ∀ path, view entries path = view others path) : entries = others :=
  directory.inj (Ordered.ext _ _ ((ordered_directory _).mpr h) ((ordered_directory _).mpr h') rfl
    hview)

mutual
def leaves : StructureEntry → List (List String)
  | .file _ => [[]]
  | .directory entries => leavesOf entries

def leavesOf : List (String × StructureEntry) → List (List String)
  | [] => []
  | (name, e) :: rest => e.leaves.map (name :: ·) ++ leavesOf rest
end

mutual
private theorem length_leaves : (e : StructureEntry) → e.leaves.length = e.fileCount
  | .file _ => rfl
  | .directory entries => by rw [leaves, fileCount, length_leavesOf entries]

theorem length_leavesOf : (entries : List (String × StructureEntry)) →
    (leavesOf entries).length = fileCounts entries
  | [] => rfl
  | (_, e) :: rest => by
    rw [leavesOf, fileCounts, List.length_append, List.length_map, length_leaves e,
      length_leavesOf rest]
end

private theorem mem_leavesOf (entries : List (String × StructureEntry)) (path : List String) :
    path ∈ leavesOf entries ↔
      ∃ name e rest, (name, e) ∈ entries ∧ path = name :: rest ∧ rest ∈ e.leaves := by
  induction entries with
  | nil => simp [leavesOf]
  | cons first others ih =>
    obtain ⟨name,e⟩ := first
    rw [leavesOf, List.mem_append, ih, List.mem_map]
    constructor
    · rintro (⟨rest,hrest,rfl⟩ | ⟨name',e',rest,hmem,hrest⟩)
      · exact ⟨name,e,rest,List.mem_cons_self,rfl,hrest⟩
      · exact ⟨name',e',rest,List.mem_cons_of_mem _ hmem,hrest⟩
    · rintro ⟨name',e',rest,hmem,rfl,hrest⟩
      rcases List.mem_cons.mp hmem with heq | hmem
      · cases heq
        exact .inl ⟨rest,hrest,rfl⟩
      · exact .inr ⟨name',e',rest,hmem,rfl,hrest⟩

/-- The leaves are the paths at which files stand. -/
theorem mem_leavesOf_iff (path : List String) {entries : List (String × StructureEntry)}
    (h : OrderedBelow entries) :
    path ∈ leavesOf entries ↔ ∃ record, view entries path = some (some record) := by
  induction path generalizing entries with
  | nil => simp [mem_leavesOf, view, find?]
  | cons s rest ih =>
    have hentry : s :: rest ∈ leavesOf entries ↔
        ∃ e, OrderedMap.get? s entries = some e ∧ rest ∈ e.leaves := by
      rw [mem_leavesOf]
      constructor
      · rintro ⟨name,e,rest',hmem,heq,hrest⟩
        cases heq
        exact ⟨e,(h.1.mem_iff s e).mp hmem,hrest⟩
      · rintro ⟨e,hget,hrest⟩
        exact ⟨s,e,rest,(h.1.mem_iff s e).mpr hget,rfl,hrest⟩
    rw [hentry]
    by_cases hrest : rest = []
    · subst hrest
      rw [view, find?]
      cases hget : OrderedMap.get? s entries with
      | none => simp
      | some e => cases e <;> simp [leaves, record?, mem_leavesOf]
    · rw [view_cons hrest]
      cases hget : OrderedMap.get? s entries with
      | none => simp [view_nil]
      | some e =>
        cases e with
        | file record => simp [leaves, hrest, children, view_nil]
        | directory inner =>
          have hinner := (ordered_directory inner).mp (h.2 _ ((h.1.mem_iff s _).mpr hget))
          simp [leaves, children, ih hinner]

mutual
private theorem nodup_leaves : (e : StructureEntry) → e.Ordered → e.leaves.Nodup
  | .file _, _ => by simp [leaves]
  | .directory entries, h => by
    rw [Ordered] at h
    rw [leaves]
    exact nodup_leavesOf entries h.1 h.2

theorem nodup_leavesOf : (entries : List (String × StructureEntry)) →
    OrderedMap.Increasing entries → OrderedAll entries → (leavesOf entries).Nodup
  | [], _, _ => by simp [leavesOf]
  | (name, e) :: rest, hinc, h => by
    rw [OrderedAll] at h
    obtain ⟨hfirst,hrest⟩ := List.pairwise_cons.mp hinc
    rw [leavesOf, List.nodup_append]
    refine ⟨?_,nodup_leavesOf rest hrest h.2,?_⟩
    · exact (nodup_leaves e h.1).map fun _ _ heq => (List.cons.inj heq).2
    -- a leaf of a later entry begins with a later name
    · rintro path hpath other hother rfl
      obtain ⟨below,-,rfl⟩ := List.mem_map.mp hpath
      obtain ⟨name',e',below',hmem,heq,-⟩ := (mem_leavesOf rest _).mp hother
      cases heq
      exact String.lt_irrefl name (hfirst _ hmem)
end

end StructureEntry

namespace StructureMap
open DocSnapshot.Path (segments recordPath)
open StructureEntry (find? view leavesOf OrderedBelow)

def Above (path other : List String) : Prop := path <+: other ∧ path ≠ other

instance (path other : List String) : Decidable (Above path other) :=
  inferInstanceAs (Decidable (_ ∧ _))

/-- What stands at a path after some sources: a directory above a source, or the file of the last
source that leads there. -/
def meaning (sources : List String) (path : List String) : Option (Option String) :=
  if ∃ source ∈ sources, Above path (segments source) then some none
  else (sources.filter (segments · = path)).getLast?.map fun source => some (recordPath source)

private theorem view_insert (m : StructureMap) (source : String) {path : List String}
    (hne : path ≠ []) : view (m.insert source).entries path =
      if Above path (segments source) then some none
      else if segments source = path ∧ view m.entries path ≠ some none then
        some (some (recordPath source))
      else view m.entries path := by
  -- What is new is directories on the way, and a file where no directory is.
  by_cases habove : Above path (segments source)
  · obtain ⟨inner,hinner⟩ := StructureEntry.find?_insert_of_prefix (recordPath source) hne habove.1
      habove.2 m.entries
    rw [if_pos habove, view, StructureMap.insert, hinner]
    rfl
  · rw [if_neg habove, view, view, StructureMap.insert]
    by_cases heq : segments source = path
    · subst heq
      rw [StructureEntry.find?_insert_self _ hne]
      cases hfind : find? (segments source) m.entries with
      | none => simp [StructureEntry.record?]
      | some e => cases e <;> simp [StructureEntry.record?]
    · have hoff : ¬path <+: segments source := fun hp => habove ⟨hp,Ne.symm heq⟩
      rw [StructureEntry.find?_insert_of_not_prefix _ hoff, if_neg fun h => heq h.1]

theorem orderedBelow_foldl (sources : List String) :
    OrderedBelow (sources.foldl insert empty).entries := by
  induction sources using List.reverseRecOn with
  | nil => exact holds_empty.ordered
  | append_singleton sources source ih =>
    rw [List.foldl_append]
    exact ih.insert _ _

private theorem meaning_ne_directory {sources : List String} {path : List String}
    (h : ¬∃ source ∈ sources, Above path (segments source)) :
    meaning sources path ≠ some none := by
  simp [meaning, h]

private theorem meaning_concat (sources : List String) (source : String) (path : List String) :
    meaning (sources ++ [source]) path =
      if Above path (segments source) then some none
      else if segments source = path ∧ meaning sources path ≠ some none then
        some (some (recordPath source))
      else meaning sources path := by
  by_cases habove : Above path (segments source)
  · rw [if_pos habove, meaning, if_pos ⟨source,by simp,habove⟩]
  · rw [if_neg habove]
    by_cases hearlier : ∃ other ∈ sources, Above path (segments other)
    · have hdir : meaning sources path = some none := by rw [meaning, if_pos hearlier]
      obtain ⟨other,hother,hover⟩ := hearlier
      rw [hdir, if_neg fun h => h.2 rfl, meaning, if_pos ⟨other,by simp [hother],hover⟩]
    · have hnone : ¬∃ other ∈ sources ++ [source], Above path (segments other) := by
        rintro ⟨other,hother,hover⟩
        rcases List.mem_append.mp hother with hother | hother
        · exact hearlier ⟨other,hother,hover⟩
        · exact habove (List.mem_singleton.mp hother ▸ hover)
      by_cases heq : segments source = path
      · rw [if_pos ⟨heq,meaning_ne_directory hearlier⟩, meaning, if_neg hnone]
        simp [heq]
      · rw [if_neg fun h => heq h.1, meaning, if_neg hnone, meaning, if_neg hearlier]
        simp [heq]

/-- What stands at each path after any sources, added in this order. -/
theorem view_foldl (sources : List String) {path : List String} (hne : path ≠ []) :
    view (sources.foldl insert empty).entries path = meaning sources path := by
  induction sources using List.reverseRecOn with
  | nil => exact StructureEntry.view_nil path
  | append_singleton sources source ih =>
    rw [List.foldl_append, List.foldl_cons, List.foldl_nil, view_insert _ _ hne, ih,
      meaning_concat]

private theorem foldl_congr {sources others : List String}
    (h : ∀ path, path ≠ [] → meaning sources path = meaning others path) :
    sources.foldl insert empty = others.foldl insert empty := by
  -- Entries in order are known by what they mean.
  refine congrArg StructureMap.mk ((orderedBelow_foldl sources).ext (orderedBelow_foldl others) ?_)
  intro path
  by_cases hne : path = []
  · rw [hne, view, view, find?, find?]
  · rw [view_foldl sources hne, view_foldl others hne, h path hne]

private theorem exists_last {sources path : List String} {source : String} (h : source ∈ sources)
    (hpath : segments source = path) : ∃ last ∈ sources, segments last = path ∧
      (sources.filter (segments · = path)).getLast? = some last := by
  have hne : sources.filter (segments · = path) ≠ [] :=
    List.ne_nil_of_mem (List.mem_filter.mpr ⟨h,by simpa using hpath⟩)
  obtain ⟨last,hlast⟩ := Option.isSome_iff_exists.mp (List.getLast?_isSome.mpr hne)
  have hmem := List.mem_filter.mp (List.mem_of_getLast? hlast)
  exact ⟨last,hmem.1,by simpa using hmem.2,hlast⟩

private theorem meaning_congr {sources others : List String}
    (hmem : ∀ source, source ∈ others ↔ source ∈ sources)
    (hinj : ∀ source ∈ sources, ∀ other ∈ sources, segments source = segments other →
      source = other) (path : List String) : meaning others path = meaning sources path := by
  have hlast : ∀ {names : List String}, (∀ name ∈ names, name ∈ sources) →
      ∀ {name}, name ∈ names → segments name = path →
      (names.filter (segments · = path)).getLast? = some name := by
    intro names hnames name hname hpath
    obtain ⟨last,hmem,hlast,hget⟩ := exists_last hname hpath
    rw [hget, hinj last (hnames last hmem) name (hnames name hname) (hlast.trans hpath.symm)]
  rw [meaning, meaning]
  simp only [hmem]
  congr 2
  by_cases hsome : ∃ source ∈ sources, segments source = path
  · obtain ⟨source,hsource,hpath⟩ := hsome
    rw [hlast (fun _ => (hmem _).mp) ((hmem source).mpr hsource) hpath,
      hlast (fun _ => id) hsource hpath]
  · have hnone : ∀ {names : List String}, (∀ name ∈ names, name ∈ sources) →
        names.filter (segments · = path) = [] := fun hnames =>
      List.filter_eq_nil_iff.mpr fun name hname => by
        simpa using fun hpath => hsome ⟨name,hnames name hname,hpath⟩
    rw [hnone fun _ => (hmem _).mp, hnone fun _ => id]

/-- The paths that sources lead to, without those above another. -/
def ends (sources : List String) : Finset (List String) :=
  (sources.map segments).toFinset.filter fun path =>
    path ≠ [] ∧ ∀ source ∈ sources, ¬Above path (segments source)

private theorem ends_congr {sources others : List String}
    (hmem : ∀ source, source ∈ others ↔ source ∈ sources) : ends others = ends sources := by
  ext path
  simp [ends, hmem]

private theorem mem_ends_iff (sources path : List String) :
    path ∈ ends sources ↔ path ≠ [] ∧ ∃ record, meaning sources path = some (some record) := by
  by_cases habove : ∃ source ∈ sources, Above path (segments source)
  · obtain ⟨source,hsource,hover⟩ := habove
    have hnot : path ∉ ends sources := fun hmem =>
      (Finset.mem_filter.mp hmem).2.2 source hsource hover
    simp [hnot, meaning, if_pos (⟨source,hsource,hover⟩ : ∃ s ∈ sources, Above path (segments s))]
  · have hends : path ∈ ends sources ↔ path ≠ [] ∧ ∃ source ∈ sources, segments source = path := by
      have hfree : ∀ source ∈ sources, ¬Above path (segments source) := fun source hsource hover =>
        habove ⟨source,hsource,hover⟩
      rw [ends, Finset.mem_filter, List.mem_toFinset, List.mem_map]
      exact ⟨fun ⟨hlead,hne,_⟩ => ⟨hne,hlead⟩,fun ⟨hne,hlead⟩ => ⟨hlead,hne,hfree⟩⟩
    rw [hends, meaning, if_neg habove]
    refine and_congr_right fun _ => ⟨?_,?_⟩
    · rintro ⟨source,hsource,hpath⟩
      obtain ⟨last,-,-,hlast⟩ := exists_last hsource hpath
      exact ⟨recordPath last,by rw [hlast, Option.map_some]⟩
    · rintro ⟨record,hrecord⟩
      obtain ⟨last,hlast,-⟩ := Option.map_eq_some_iff.mp hrecord
      have hmem := List.mem_filter.mp (List.mem_of_getLast? hlast)
      exact ⟨last,hmem.1,by simpa using hmem.2⟩

private theorem fileCount_foldl (sources : List String) :
    (sources.foldl insert empty).fileCount = (ends sources).card := by
  have horder := orderedBelow_foldl sources
  have hnodup := StructureEntry.nodup_leavesOf _ horder.1
    ((StructureEntry.orderedAll_iff _).mpr horder.2)
  rw [fileCount, ← StructureEntry.length_leavesOf, ← List.toFinset_card_of_nodup hnodup]
  congr 1
  ext path
  rw [List.mem_toFinset, StructureEntry.mem_leavesOf_iff path horder, mem_ends_iff]
  by_cases hne : path = []
  · simp [hne, view, find?]
  · simp [hne, view_foldl sources hne]

private theorem get?_of_above {sources : List String} {path : String} (hne : segments path ≠ [])
    (habove : ∃ source ∈ sources, Above (segments path) (segments source)) :
    ∃ entries, (sources.foldl insert empty).get? path = some (.directory entries) := by
  have hview := view_foldl sources hne
  rw [meaning, if_pos habove, view, Option.map_eq_some_iff] at hview
  obtain ⟨e,hfind,hdir⟩ := hview
  cases e with
  | file record => cases hdir
  | directory entries => exact ⟨entries,hfind⟩

private theorem get?_of_not_above {sources : List String} {path : String}
    (hne : segments path ≠ [])
    (habove : ¬∃ source ∈ sources, Above (segments path) (segments source)) :
    (sources.foldl insert empty).get? path =
      (sources.filter (segments · = segments path)).getLast?.map fun source =>
        .file (recordPath source) := by
  have hview := view_foldl sources hne
  rw [meaning, if_neg habove, view] at hview
  rw [get?]
  cases hlast : (sources.filter (segments · = segments path)).getLast? with
  | none => simpa [hlast] using hview
  | some source =>
    rw [hlast, Option.map_some, Option.map_eq_some_iff] at hview
    obtain ⟨e,hfind,hfile⟩ := hview
    cases e with
    | file record =>
      cases hfile
      exact hfind
    | directory entries => cases hfile

private theorem foldl_eq_build {sources others : List String}
    (hmem : ∀ source, source ∈ others ↔ source ∈ sources)
    (hwhole : ∀ source ∈ sources, "" ∉ FileSystem.partsOf source) :
    others.foldl insert empty = build sources := by
  have hparts : ∀ source ∈ sources, segments source = FileSystem.partsOf source := by
    intro source hsource
    rw [Path.segments_eq]
    refine List.filter_eq_self.mpr fun part hpart => ?_
    simpa using fun hempty : part = "" => hwhole source hsource (hempty ▸ hpart)
  have hinj : ∀ source ∈ sources, ∀ other ∈ sources, segments source = segments other →
      source = other := by
    intro source hsource other hother heq
    rw [hparts source hsource, hparts other hother] at heq
    exact Path.partsOf_inj heq
  refine foldl_congr fun path _ => ?_
  rw [meaning_congr hmem hinj path, meaning_congr (fun _ => Text.mem_sorted) hinj path]

/-- The meaning of a structure map over every history of sources: which entry stands where, that
only the set of sources counts for a map that is built and for sources without empty segments, and
how many files there are. -/
theorem insertions_determine_map (sources : List String) :
    (∀ path, segments path ≠ [] →
      ((∃ source ∈ sources, Above (segments path) (segments source)) →
        ∃ entries, (sources.foldl insert empty).get? path = some (.directory entries)) ∧
      ((¬∃ source ∈ sources, Above (segments path) (segments source)) →
        (sources.foldl insert empty).get? path =
          (sources.filter (segments · = segments path)).getLast?.map fun source =>
            .file (recordPath source))) ∧
    (∀ others, (∀ source, source ∈ others ↔ source ∈ sources) → build others = build sources ∧
      ((∀ source ∈ sources, "" ∉ FileSystem.partsOf source) →
        others.foldl insert empty = build sources)) ∧
    (sources.foldl insert empty).fileCount = (ends sources).card ∧
    (build sources).fileCount = (ends sources).card := by
  refine ⟨fun path hne => ⟨get?_of_above hne,get?_of_not_above hne⟩,
    fun others hmem => ⟨?_,foldl_eq_build hmem⟩,fileCount_foldl sources,?_⟩
  · rw [build, build, Text.sorted_congr hmem]
  · rw [build, fileCount_foldl, ends_congr fun _ => Text.mem_sorted]

/-- A file that became a directory, one path in two spellings, and a second order of sources. -/
theorem insertions_determine_map_spellings :
    let sources := ["x.py", "a//b", "x.py/y.py", "/a/b"]
    (∃ entries, (sources.foldl insert empty).get? "x.py" = some (.directory entries)) ∧
    (sources.foldl insert empty).get? "a/b" = some (.file "/a/b.json") ∧
    (sources.foldl insert empty).fileCount = 2 ∧
    build ["x.py/y.py", "x.py", "x.py"] = build ["x.py", "x.py/y.py"] ∧
    ["x.py/y.py", "x.py", "x.py"].foldl insert empty = build ["x.py", "x.py/y.py"] := by
  intro sources
  have hall := insertions_determine_map sources
  have hset := (insertions_determine_map ["x.py", "x.py/y.py"]).2.1 ["x.py/y.py", "x.py", "x.py"]
    (by simp [or_comm])
  refine ⟨(hall.1 "x.py" (by decide +kernel)).1 ?_,?_,?_,hset.1,hset.2 (by decide +kernel)⟩
  · exact ⟨"x.py/y.py",by decide +kernel,by decide +kernel⟩
  · have hlast : (sources.filter (segments · = segments "a/b")).getLast? = some "/a/b" := by
      decide +kernel
    rw [(hall.1 "a/b" (by decide +kernel)).2 (by decide +kernel), hlast]
    rfl
  · exact hall.2.2.1.trans (by decide +kernel)

end StructureMap

end DocSnapshot
