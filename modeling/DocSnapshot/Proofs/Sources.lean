import DocSnapshot.Proofs.Discovery
import DocSnapshot.Proofs.FileSystem.Effect
import DocSnapshot.Proofs.FileSystem.Walk
import DocSnapshot.Proofs.StructureMap
import DocSnapshot.Proofs.Text.Order

/-! The sources of a project as a scan finds them: by their names below the root of the project,
behind no hidden directory, and none in the way of another. -/
namespace DocSnapshot

/-- A file system as it can be, with the names of each directory in order. -/
structure FileSystem.Proper (fs : FileSystem) : Prop extends fs.WellFormed where
  ordered : fs.root.ordered = true

namespace FileSystem

variable {fs : FileSystem} {dir : List String}

private theorem filesBelow_eq {es : List (String × Node)} (h : fs.find? dir = some (.dir es)) :
    fs.filesBelow dir false = (Node.dir es).files := by
  simp [filesBelow, h, Node.entries, Node.files]

theorem mem_filesBelow (hfs : fs.root.ordered = true) (hdir : fs.kind? dir = some .dir)
    (path : List String) :
    path ∈ fs.filesBelow dir false ↔ (∃ bytes x, fs.kind? (dir ++ path) = some (.file bytes x)) ∧
      ∀ d ∈ path.dropLast, Node.isHiddenName d = false := by
  obtain ⟨es,hfind⟩ := find?_of_kind?_dir hdir
  rw [filesBelow_eq hfind, Node.mem_files_iff path (Node.ordered_of_find? hfs hfind), kind?_append,
    hfind]
  rfl

theorem nodup_filesBelow (hfs : fs.root.ordered = true) (hdir : fs.kind? dir = some .dir) :
    (fs.filesBelow dir false).Nodup := by
  obtain ⟨es,hfind⟩ := find?_of_kind?_dir hdir
  rw [filesBelow_eq hfind]
  exact Node.nodup_files _ (Node.ordered_of_find? hfs hfind)

end FileSystem

namespace Path
open FileSystem (partsOf)

theorem segments_eq (path : String) : segments path = (partsOf path).filter (· ≠ "") := by
  rw [segments, partsOf, List.filter_map]
  congr 1
  refine List.filter_congr fun part _ => ?_
  have hempty : String.ofList part = "" ↔ part = [] := @String.ofList_inj part []
  simp [hempty]

theorem segments_of_names {path : String} (h : ∀ part ∈ partsOf path, isName part = true) :
    segments path = partsOf path := by
  rw [segments_eq]
  refine List.filter_eq_self.mpr fun part hpart => ?_
  have hname := h part hpart
  simp_all [isName, isReal]

variable {source name : String} {dirs : List String}

theorem Source.partsOf (h : Source source dirs name) : partsOf source = dirs ++ [name] := by
  rw [h.slashed]
  exact partsOf_slashed (by simp) h.names

theorem Source.segments (h : Source source dirs name) : segments source = dirs ++ [name] := by
  rw [segments_of_names (h.partsOf ▸ h.names), h.partsOf]

end Path

namespace Scan
open FileSystem (partsOf)

variable {fs gs : FileSystem} {root : String} {m : Ignore.Matcher} {scan : Scan}

theorem stat_of_run (h : Scan.run fs root m false = .ok scan) :
    ∃ dir es, fs.stat root = .ok (dir, .dir es) ∧
      scan = ofFiles root m ((fs.filesBelow dir false).map slashed) := by
  rw [Scan.run, walk] at h
  split at h
  · next dir es hstat =>
    cases h
    exact ⟨dir,es,hstat,rfl⟩
  · cases h

structure Found (fs : FileSystem) (dir : List String) (source : String) (dirs : List String)
    (name : String) : Prop extends Path.Source source dirs name where
  file : ∃ bytes x, fs.kind? (dir ++ (dirs ++ [name])) = some (.file bytes x)
  shown : ∀ d ∈ dirs, Node.isHiddenName d = false

theorem found_of_run (hfs : fs.Proper) {dir : List String} {es : List (String × Node)}
    (hstat : fs.stat root = .ok (dir, .dir es)) (h : Scan.run fs root m false = .ok scan)
    {source : String} (hmem : source ∈ scan.files) :
    ∃ dirs name, Found fs dir source dirs name := by
  obtain ⟨dir',es',dirs,name,hstat',hfile,hsource⟩ := mem_of_run hfs.toWellFormed h hmem
  cases hstat.symm.trans hstat'
  have hdir := FileSystem.kind?_of_find? (FileSystem.find?_of_stat hfs.kind?_root hstat)
  rw [FileSystem.mem_filesBelow hfs.ordered hdir, List.dropLast_concat] at hfile
  exact ⟨dirs,name,hsource,hfile.1,hfile.2⟩

/-- No source leads to another, or to a directory above it. -/
theorem pairwise_apart (hfs : fs.Proper) (h : Scan.run fs root m false = .ok scan) :
    scan.files.Pairwise StructureMap.Apart := by
  obtain ⟨dir,es,hstat,hscan⟩ := stat_of_run h
  have hnodup : scan.files.Nodup := by
    rw [hscan]
    exact Text.nodup_eraseDups _
  have happart : ∀ source ∈ scan.files, ∀ other ∈ scan.files,
      Path.segments source <+: Path.segments other → source = other := by
    intro source hsource other hother hinit
    obtain ⟨dirs,name,hs⟩ := found_of_run hfs hstat h hsource
    obtain ⟨dirs',name',ho⟩ := found_of_run hfs hstat h hother
    rw [hs.segments, ho.segments] at hinit
    obtain ⟨rest,hrest⟩ := hinit
    obtain ⟨bytes,x,hfile⟩ := hs.file
    obtain ⟨bytes',x',hfile'⟩ := ho.file
    by_cases hnil : rest = []
    · rw [hnil, List.append_nil] at hrest
      rw [hs.slashed, ho.slashed, hrest]
    · rw [← hrest, ← List.append_assoc,
        FileSystem.kind?_below (by simp [hfile]) hnil] at hfile'
      cases hfile'
  refine hnodup.imp_of_mem fun hsource hother hne => ⟨fun hp => ?_,fun hp => ?_⟩
  · exact hne (happart _ hsource _ hother hp)
  · exact hne (happart _ hother _ hsource hp).symm

/-- The order in which files are found does not matter. -/
theorem ofFiles_perm {found others : List String}
    (h : (found.filter Path.isSource).Perm (others.filter Path.isSource)) :
    ofFiles root m found = ofFiles root m others := by
  have hfiles := h.filter fun path => !(m.excludes? path).getD false
  have hignored := h.filter fun path => (m.excludes? path).getD false
  simp only [ofFiles]
  rw [Text.sorted_congr fun _ => hfiles.mem_iff, hignored.length_eq]

/-- A scan depends only on which paths lead to files among those that sources can have. -/
theorem run_congr (hfs : fs.root.ordered = true) (hgs : gs.root.ordered = true)
    {dir : List String} {es es' : List (String × Node)}
    (hstat : fs.stat root = .ok (dir, .dir es)) (hstat' : gs.stat root = .ok (dir, .dir es'))
    (hdir : fs.kind? dir = some .dir) (hdir' : gs.kind? dir = some .dir)
    (hsame : ∀ path, Path.isSource (slashed path) = true →
      ((∃ bytes x, fs.kind? (dir ++ path) = some (.file bytes x)) ↔
        ∃ bytes x, gs.kind? (dir ++ path) = some (.file bytes x))) :
    Scan.run gs root m false = Scan.run fs root m false := by
  simp only [Scan.run, walk, hstat, hstat', Except.map]
  refine congrArg Except.ok (ofFiles_perm ?_)
  rw [List.filter_map, List.filter_map]
  refine List.Perm.map _ ?_
  refine (List.perm_ext_iff_of_nodup ((FileSystem.nodup_filesBelow hgs hdir').filter _)
    ((FileSystem.nodup_filesBelow hfs hdir).filter _)).mpr fun path => ?_
  rw [List.mem_filter, List.mem_filter, FileSystem.mem_filesBelow hgs hdir',
    FileSystem.mem_filesBelow hfs hdir, Function.comp]
  constructor
  · rintro ⟨⟨hfile,hshown⟩,hsource⟩
    exact ⟨⟨(hsame path hsource).mpr hfile,hshown⟩,hsource⟩
  · rintro ⟨⟨hfile,hshown⟩,hsource⟩
    exact ⟨⟨(hsame path hsource).mp hfile,hshown⟩,hsource⟩

end Scan

end DocSnapshot
