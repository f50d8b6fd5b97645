import DocSnapshot.Proofs.FileSystem.Reach
import DocSnapshot.Proofs.Snapshot.Faults
import DocSnapshot.Proofs.Snapshot.Phases

/-! The manifest on disk at every moment of a project's life. Runs come and go, fail or are stopped,
and others change the project; the manifest is always that of the last run that put one in place,
and every record it names is there as a whole. -/
namespace DocSnapshot
open FileSystem (partsOf)
open Text.Utf8 (encode)

namespace Layout

/-- Whether one of some records stands as a whole at a path from the output directory, the one that
its source has there. -/
def Complete (l : Layout) (recent : List Record) (fs : FileSystem) (path : String) : Prop :=
  ∃ r ∈ recent, Path.isSource r.path = true ∧ Path.recordPath r.path = path ∧
    l.file? fs path = some (encode r.toJson.pretty)

/-- Whether `gs` has the manifest of `fs` and what that has of some records, `added` ones counted
in. -/
structure Keeps (l : Layout) (added : List Record) (fs gs : FileSystem) : Prop where
  plain : l.Plain gs
  manifest : l.file? gs "index.json" = l.file? fs "index.json"
  records : ∀ recent path, added ⊆ recent → l.Complete recent fs path → l.Complete recent gs path

variable {l : Layout} {added : List Record} {fs gs hs : FileSystem}

theorem Keeps.trans (h : l.Keeps added fs gs) (h' : l.Keeps added gs hs) : l.Keeps added fs hs :=
  ⟨h'.plain,h'.manifest.trans h.manifest,fun recent path hadded hc =>
    h'.records recent path hadded (h.records recent path hadded hc)⟩

private theorem not_isTemp_recordPath (source : String) :
    ¬IsTemp (partsOf (Path.recordPath source)) := by
  rintro ⟨dirs,name,htemp⟩
  obtain ⟨dirs',name',hrecord⟩ := Path.partsOf_recordPath_concat source
  have hlast := (List.append_inj_right' (hrecord.symm.trans htemp) rfl)
  exact Path.recordPath_ne_tempName name' name (List.singleton_inj.mp hlast)

private theorem recordPath_ne {source stem : String} (h : Path.isSource source = true)
    (hstem : Path.isSource stem = false) : Path.recordPath source ≠ Path.recordPath stem := by
  intro heq
  rw [Path.recordPath_inj heq, hstem] at h
  cases h

private theorem not_isTemp_index : ¬IsTemp (partsOf "index.json") :=
  not_isTemp_recordPath "index"

theorem Kept.keeps (h : l.Kept fs gs) (added : List Record) : l.Keeps added fs gs := by
  refine ⟨h.plain,h.bytes _ not_isTemp_index,?_⟩
  rintro recent _ - ⟨r,hr,hsource,rfl,hfile⟩
  exact ⟨r,hr,hsource,rfl,(h.bytes _ (not_isTemp_recordPath r.path)).trans hfile⟩

/-- A file that is put in the place of an added record, or of none, and not in that of the
manifest. -/
theorem Placed.keeps {path : String} {bytes : List UInt8}
    (h : l.Placed fs gs (partsOf path) bytes) (hindex : path ≠ "index.json")
    (hadded : ∀ source, Path.isSource source = true → Path.recordPath source = path →
      ∃ r ∈ added, r.path = source ∧ bytes = encode r.toJson.pretty) :
    l.Keeps added fs gs := by
  refine ⟨h.plain,?_,?_⟩
  · rw [file?, file?, h.bytes _ not_isTemp_index, if_neg]
    exact fun heq => hindex (Path.partsOf_inj heq).symm
  · rintro recent _ hsub ⟨r,hr,hsource,rfl,hfile⟩
    have hbytes := h.bytes _ (not_isTemp_recordPath r.path)
    by_cases hpath : Path.recordPath r.path = path
    · obtain ⟨r',hr',hsame,rfl⟩ := hadded r.path hsource hpath
      rw [if_pos (congrArg partsOf hpath)] at hbytes
      exact ⟨r',hsub hr',hsame ▸ hsource,by rw [hsame],hbytes⟩
    · rw [if_neg (fun heq => hpath (Path.partsOf_inj heq))] at hbytes
      exact ⟨r,hr,hsource,rfl,hbytes.trans hfile⟩

/-- A record that is put in its place. -/
theorem Placed.record {r : Record} (hr : r ∈ added) (hsource : Path.isSource r.path = true)
    (h : l.Placed fs gs (partsOf (Path.recordPath r.path)) (encode r.toJson.pretty)) :
    l.Keeps added fs gs ∧ l.Complete added gs (Path.recordPath r.path) := by
  have hindex : Path.recordPath r.path ≠ Path.recordPath "index" :=
    recordPath_ne hsource (by decide)
  refine ⟨h.keeps hindex fun source _ hpath => ?_,r,hr,hsource,rfl,?_⟩
  · exact ⟨r,hr,(Path.recordPath_inj hpath).symm,rfl⟩
  · rw [file?, h.bytes _ (not_isTemp_recordPath r.path), if_pos rfl]

/-- Records that are written one after another: all are in their places, or work has ended; the
manifest and what it names are kept either way. -/
theorem Performed.records {records : List Record} {rest : List FileStep} {e : Ending}
    (h : l.Performed ((records.map fun r => Artifact.mk (l.recordFile r.path)
      r.toJson.pretty).flatMap Artifact.steps ++ rest) fs gs e) (hp : l.Plain fs)
    (hadded : records ⊆ added)
    (hsources : ∀ r ∈ records, ∃ dirs name, Path.Source r.path dirs name) :
    (e ≠ .finished ∧ l.Keeps added fs gs) ∨
      ∃ mid, l.Keeps added fs mid ∧
        (∀ r ∈ records, l.Complete added mid (Path.recordPath r.path)) ∧
        l.Performed rest mid gs e := by
  induction records generalizing fs with
  | nil => exact .inr ⟨fs,hp.kept.keeps added,by simp,h⟩
  | cons r records ih =>
    rw [List.map_cons, List.flatMap_cons, List.append_assoc] at h
    obtain ⟨dirs,name,hsource⟩ := hsources r List.mem_cons_self
    obtain ⟨hwithin,hparts⟩ := l.within_recordFile hsource.slashed hsource.names
    rcases h.artifact hp hwithin with ⟨he,hkept⟩ | ⟨mid,hplaced,h⟩
    · exact .inl ⟨he,hkept.keeps added⟩
    · rw [← hparts] at hplaced
      obtain ⟨hkeeps,hcomplete⟩ :=
        Placed.record (hadded List.mem_cons_self) hsource.isSource hplaced
      have hadded : records ⊆ added := fun _ hr => hadded (List.mem_cons_of_mem _ hr)
      have hsources := fun r hr => hsources r (List.mem_cons_of_mem _ hr)
      rcases ih h hkeeps.plain hadded hsources with ⟨he,hkept⟩ | ⟨last,hlast,hall,h⟩
      · exact .inl ⟨he,hkeeps.trans hkept⟩
      · refine .inr ⟨last,hkeeps.trans hlast,fun r' hr' => ?_,h⟩
        rcases List.mem_cons.mp hr' with rfl | hr'
        · exact hlast.records _ _ (fun _ hr => hr) hcomplete
        · exact hall r' hr'

end Layout

/-- What a run comes to in a world with faults: the files it leaves, its end, the records it has
extracted, and its manifest if it put that in place. It may end before it writes anything. The
project may change between a look at its files and the next: `found` is what the scan saw, `seen i`
what the extraction of the source `i` saw, and `named` what the name of the project was taken from.
-/
inductive Snapshot.Ran (s : Snapshot) (fs : FileSystem) :
    FileSystem → Ending → List Record → Option Manifest → Prop
  | early {e : Ending} (h : e ≠ .finished) : Ran s fs fs e [] none
  | wrote {env : Environment} {rev : Option String} {commit : Commit} {scan : Scan}
      {records : List Record} {found named gs : FileSystem} {seen : Nat → FileSystem} {e : Ending}
      (hfound : found.WellFormed) (hdiscover : s.discover found rev = .ok (commit, scan))
      (hextract : Pool.run s.config.workers
        (fun i source => Record.ofFile (seen i) s.root source (env.clock i))
        (s.interruption? env) env.schedule scan.files = .ok records)
      (hon : s.interruption? env scan.files.length = none)
      (hwrite : s.layout.Performed
        ((s.artifacts env named commit scan.files records).flatMap Artifact.steps) fs gs e) :
      Ran s fs gs e records (if e = .finished then some (.ofCommit commit scan.files) else none)

/-- What may have become of a project, with the manifest of the last run that put one in place, and
the records that this run and those after it have extracted. A run seen halfway is like one that is
stopped there. -/
inductive History (root : String) (config : Config) :
    FileSystem → Option Manifest → List Record → Prop
  | start {fs : FileSystem} (hfs : fs.WellFormed)
      (hout : (Layout.ofConfig config root).output? fs = none) : History root config fs none []
  | edited {fs gs : FileSystem} {latest : Option Manifest} {recent : List Record}
      (h : History root config fs latest recent)
      (hspares : (Layout.ofConfig config root).Spares fs gs) : History root config gs latest recent
  | failed {fs gs : FileSystem} {latest : Option Manifest} {recent records : List Record}
      {s : Snapshot} {e : Ending} (h : History root config fs latest recent)
      (hroot : s.root = root) (hconfig : s.config = config) (hran : s.Ran fs gs e records none) :
      History root config gs latest (recent ++ records)
  | finished {fs gs : FileSystem} {latest : Option Manifest} {recent records : List Record}
      {s : Snapshot} {e : Ending} {m : Manifest} (h : History root config fs latest recent)
      (hroot : s.root = root) (hconfig : s.config = config)
      (hran : s.Ran fs gs e records (some m)) :
      History root config gs (some m) records

namespace Layout

/-- What the output directory holds after a history: the latest manifest, and every record that it
names. -/
structure Describes (l : Layout) (fs : FileSystem) (latest : Option Manifest)
    (recent : List Record) : Prop where
  plain : l.Plain fs
  manifest : l.file? fs "index.json" = latest.map fun m => encode m.toJson.pretty
  records : ∀ m ∈ latest, ∀ path ∈ m.documentedFiles, l.Complete recent fs path

variable {l : Layout} {fs gs : FileSystem} {latest : Option Manifest} {recent added : List Record}

theorem Describes.keeps (h : l.Describes fs latest recent) (hkeeps : l.Keeps added fs gs) :
    l.Describes gs latest (recent ++ added) := by
  refine ⟨hkeeps.plain,hkeeps.manifest.trans h.manifest,fun m hm path hpath => ?_⟩
  obtain ⟨r,hr,hrest⟩ := h.records m hm path hpath
  exact hkeeps.records _ path (List.subset_append_right ..) ⟨r,List.mem_append_left _ hr,hrest⟩

/-- A manifest put in place over records that are all there. -/
theorem Placed.describes {m : Manifest}
    (hplaced : l.Placed fs gs (partsOf "index.json") (encode m.toJson.pretty))
    (hall : ∀ path ∈ m.documentedFiles, l.Complete recent fs path) :
    l.Describes gs (some m) recent := by
  refine ⟨hplaced.plain,?_,?_⟩
  · rw [file?, hplaced.bytes _ not_isTemp_index, if_pos rfl]
    rfl
  · intro m' hm path hpath
    cases hm
    obtain ⟨r,hr,hsource,rfl,hfile⟩ := hall path hpath
    have hne : partsOf (Path.recordPath r.path) ≠ partsOf "index.json" := fun heq =>
      absurd (Path.partsOf_inj heq) (@recordPath_ne r.path "index" hsource (by decide))
    have hbytes := hplaced.bytes _ (not_isTemp_recordPath r.path)
    rw [if_neg hne] at hbytes
    exact ⟨r,hr,hsource,rfl,hbytes.trans hfile⟩

/-- The structure map and the manifest, written over records that are all there. -/
theorem Performed.index {d : StructureDocument} {m : Manifest} {e : Ending}
    (h : l.Performed ([Artifact.mk l.structureFile d.toJson.pretty,
      Artifact.mk l.manifestFile m.toJson.pretty].flatMap Artifact.steps) fs gs e)
    (hp : l.Plain fs) (hall : ∀ path ∈ m.documentedFiles, l.Complete added fs path) :
    (e ≠ .finished ∧ l.Keeps added fs gs) ∨ (e = .finished ∧ l.Describes gs (some m) added) := by
  rcases h.artifact hp (l.within_name (by decide)) with ⟨he,hkept⟩ | ⟨mid,hplaced,h⟩
  · exact .inl ⟨he,hkept.keeps added⟩
  · have hplaced : l.Placed fs mid (partsOf "docshadow.json") _ := hplaced
    have hkeeps : l.Keeps added fs mid := by
      refine hplaced.keeps (by decide) fun source hsource hpath => ?_
      exact absurd hpath (@recordPath_ne source "docshadow" hsource (by decide))
    have hall := fun path hpath => hkeeps.records _ path (fun _ hr => hr) (hall path hpath)
    rcases h.artifact hkeeps.plain (l.within_name (by decide)) with ⟨he,hkept⟩ | ⟨mid₂,hplaced,h⟩
    · exact .inl ⟨he,hkeeps.trans (hkept.keeps added)⟩
    · obtain ⟨he,hkept⟩ := h.nil hplaced.plain
      have hd := (Placed.describes hplaced hall).keeps (hkept.keeps [])
      rw [List.append_nil] at hd
      exact .inr ⟨he,hd⟩

end Layout

namespace Snapshot

private theorem extracted {s : Snapshot} {env : Environment} {seen : Nat → FileSystem}
    {sources : List String} {records : List Record}
    (h : Pool.run s.config.workers
      (fun i source => Record.ofFile (seen i) s.root source (env.clock i))
      (s.interruption? env) env.schedule sources = .ok records) :
    records.map (·.path) = sources := by
  rw [Pool.run_eq s.workers_pos] at h
  split at h
  · cases h
  · cases h
    rw [List.map_map]
    exact List.zipIdx_map_fst 0 sources

/-- A run keeps the manifest and what it names, or comes to its end and puts its own manifest in
place over its own records. -/
theorem Ran.keeps_or_describes {s : Snapshot} {fs gs : FileSystem} {e : Ending}
    {records : List Record} {made : Option Manifest} (h : s.Ran fs gs e records made)
    (hp : s.layout.Plain fs) :
    (e ≠ .finished ∧ made = none ∧ s.layout.Keeps records fs gs) ∨
      ∃ m, made = some m ∧ s.layout.Describes gs made records := by
  cases h with
  | early he => exact .inl ⟨he,rfl,hp.kept.keeps []⟩
  | @wrote env rev commit scan records found named gs seen e hfound hdiscover hextract hon hwrite =>
    have hpaths := extracted hextract
    have hscan := (discover_ok_iff.mp hdiscover).2.2
    have hsources : ∀ r ∈ records, ∃ dirs name, Path.Source r.path dirs name := fun r hr =>
      Scan.source_of_run hfound hscan (hpaths ▸ List.mem_map_of_mem hr)
    rw [artifacts, Layout.artifacts, List.flatMap_append] at hwrite
    rcases hwrite.records hp (fun _ hr => hr) hsources with ⟨he,hkeeps⟩ | ⟨mid,hkeeps,hall,hwrite⟩
    · exact .inl ⟨he,if_neg he,hkeeps⟩
    · have hall : ∀ path ∈ (Manifest.ofCommit commit scan.files).documentedFiles,
          s.layout.Complete records mid path := by
        intro path hpath
        obtain ⟨source,hsource,rfl⟩ := List.mem_map.mp hpath
        obtain ⟨r,hr,rfl⟩ := List.mem_map.mp (hpaths ▸ hsource)
        exact hall r hr
      rcases hwrite.index hkeeps.plain hall with ⟨he,hkept⟩ | ⟨he,hd⟩
      · exact .inl ⟨he,if_neg he,hkeeps.trans hkept⟩
      · rw [if_pos he]
        exact .inr ⟨_,rfl,hd⟩

private theorem ran_of_persist {s : Snapshot} {env : Environment} {fs gs : FileSystem}
    {rev : Option String} {commit : Commit} {scan : Scan} {failure : Option Error}
    (hfs : fs.WellFormed) (hd : s.discover fs rev = .ok (commit, scan))
    (hnone : (List.range (scan.files.length + 1)).findSome? (s.interruption? env) = none)
    (hp : persist fs (s.artifacts env fs commit scan.files (s.recordsOf env fs scan.files)) =
      (gs, failure)) :
    s.Ran fs gs (if failure.isNone then .finished else .failed) (s.recordsOf env fs scan.files)
      (if failure.isNone then some (.ofCommit commit scan.files) else none) := by
  rw [List.range_succ, List.findSome?_append, Option.or_eq_none_iff] at hnone
  have hextract : s.extract env fs scan.files = .ok (s.recordsOf env fs scan.files) := by
    rw [extract_eq, hnone.1]
  have hon : s.interruption? env scan.files.length = none := by simpa using hnone.2
  have hperformed := s.layout.performed_of_persist fs
    (s.artifacts env fs commit scan.files (s.recordsOf env fs scan.files))
  rw [hp] at hperformed
  have hran := Ran.wrote hfs hd hextract hon hperformed
  cases failure <;> exact hran

/-- A run in a world without faults. -/
theorem run_ran (s : Snapshot) (env : Environment) {fs : FileSystem} (rev : Option String)
    (hfs : fs.WellFormed) :
    match (s.run env fs rev).result with
    | .error _ => ∃ records, s.Ran fs (s.run env fs rev).files .failed records none
    | .ok report => ∃ records sources,
      report.documentedFiles = (Manifest.ofCommit report.commit sources).documentedFiles ∧
      s.Ran fs (s.run env fs rev).files .finished records
        (some (.ofCommit report.commit sources)) := by
  have h := s.run_course env fs rev
  generalize s.run env fs rev = o at h ⊢
  cases h with
  | unwritten hd hnone hp => exact ⟨_,ran_of_persist hfs hd hnone hp⟩
  | @written commit scan _ hd hnone hp =>
    exact ⟨_,scan.files,rfl,ran_of_persist hfs hd hnone hp⟩
  | _ => exact ⟨[],.early (by simp)⟩

end Snapshot

private theorem describes_of_history {root : String} {config : Config} {fs : FileSystem}
    {latest : Option Manifest} {recent : List Record} (h : History root config fs latest recent) :
    (Layout.ofConfig config root).Describes fs latest recent := by
  induction h with
  | start hfs hout =>
    have hkind : ∀ path, (Layout.ofConfig config root).kind? _ path = none := fun path => by
      rw [Layout.kind?_eq, hout]
      rfl
    refine ⟨⟨hfs.kind?_root,fun path target => by simp [hkind]⟩,?_,by simp⟩
    simp [Layout.file?, Layout.bytes?, hkind]
  | edited h hspares ih =>
    have hd := ih.keeps ((hspares.kept ih.plain).keeps [])
    rwa [List.append_nil] at hd
  | failed h hroot hconfig hran ih =>
    subst hroot hconfig
    rcases hran.keeps_or_describes ih.plain with ⟨-,-,hkeeps⟩ | ⟨m,hm,-⟩
    · exact ih.keeps hkeeps
    · cases hm
  | finished h hroot hconfig hran ih =>
    subst hroot hconfig
    rcases hran.keeps_or_describes ih.plain with ⟨-,hm,-⟩ | ⟨m,-,hd⟩
    · cases hm
    · exact hd

/-- At every moment of a history the manifest on disk is that of the last run that put one in place,
byte by byte, or there is none. Every record it names is there as a whole, extracted by that run or
a later one. Whoever reads the manifest reads that one, and a run that does not come to its end, in
a world with faults or without, leaves the manifest as it was. -/
theorem history_keeps_latest_manifest {root : String} {config : Config} {fs : FileSystem}
    {latest : Option Manifest} {recent : List Record} (h : History root config fs latest recent) :
    (Layout.ofConfig config root).file? fs "index.json" =
      latest.map (fun m => encode m.toJson.pretty) ∧
    (∀ m ∈ latest, ∀ path ∈ m.documentedFiles,
      (Layout.ofConfig config root).Complete recent fs path) ∧
    (∀ bytes, fs.read (Layout.ofConfig config root).manifestFile = .ok bytes →
      ∃ m ∈ latest, bytes = encode m.toJson.pretty) ∧
    (∀ (s : Snapshot) (gs : FileSystem) (e : Ending) (records : List Record)
      (made : Option Manifest), s.root = root → s.config = config →
      s.Ran fs gs e records made → e ≠ .finished →
      (Layout.ofConfig config root).file? gs "index.json" =
        (Layout.ofConfig config root).file? fs "index.json") ∧
    (∀ (s : Snapshot) (env : Environment) (rev : Option String), s.root = root →
      s.config = config → fs.WellFormed →
      match (s.run env fs rev).result with
      | .error _ => (Layout.ofConfig config root).file? (s.run env fs rev).files "index.json" =
          (Layout.ofConfig config root).file? fs "index.json"
      | .ok report => ∃ sources, report.documentedFiles = sources.map Path.recordPath ∧
          (Layout.ofConfig config root).file? (s.run env fs rev).files "index.json" =
            some (encode (Manifest.ofCommit report.commit sources).toJson.pretty)) := by
  have hd := describes_of_history h
  have hunfinished : ∀ (s : Snapshot) (gs : FileSystem) (e : Ending) (records : List Record)
      (made : Option Manifest), s.root = root → s.config = config →
      s.Ran fs gs e records made → e ≠ .finished →
      (Layout.ofConfig config root).file? gs "index.json" =
        (Layout.ofConfig config root).file? fs "index.json" := by
    rintro s gs e records made rfl rfl hran he
    rcases hran.keeps_or_describes hd.plain with ⟨-,-,hkeeps⟩ | ⟨m,hm,-⟩
    · exact hkeeps.manifest
    · cases hran with
      | early => cases hm
      | wrote => rw [if_neg he] at hm; cases hm
  refine ⟨hd.manifest,hd.records,fun bytes hread => ?_,hunfinished,?_⟩
  · have hbytes := hd.plain.read (Layout.within_name _ (by decide)) hread
    obtain ⟨m,hm,hencode⟩ := Option.map_eq_some_iff.mp (hd.manifest.symm.trans hbytes)
    exact ⟨m,hm,hencode.symm⟩
  · intro s env rev hroot hconfig hfs
    have hran := s.run_ran env rev hfs
    generalize s.run env fs rev = o at hran ⊢
    cases hresult : o.result with
    | error err =>
      rw [hresult] at hran
      obtain ⟨records,hran⟩ := hran
      exact hunfinished s _ _ records none hroot hconfig hran (by simp)
    | ok report =>
      rw [hresult] at hran
      obtain ⟨records,sources,hfiles,hran⟩ := hran
      exact ⟨sources,hfiles,(describes_of_history (h.finished hroot hconfig hran)).manifest⟩

/-- What a run discovers in a project with one source and no ignore file. -/
theorem Snapshot.discover_single {s : Snapshot} {fs : FileSystem} {rev : Option String}
    {commit : Commit} {dir : List String} {es : List (String × Node)} {source : String}
    (hrepo : s.commits.isRepository = true) (hcommit : s.commits.commit rev = .ok commit)
    (hmissing : fs.exists? (Path.join s.root s.config.ignoreFile) = false)
    (hstat : fs.stat s.root = .ok (dir, .dir es))
    (hsources : ((fs.filesBelow dir false).map Scan.slashed).filter Path.isSource = [source]) :
    s.discover fs rev = .ok (commit, ⟨s.root, [source], 0⟩) := by
  rw [discover_ok_iff, Ignore.Matcher.load_of_missing hmissing]
  exact ⟨hrepo,hcommit,Scan.run_single hstat hsources⟩

def oneSource : FileSystem := ⟨.dir [("p", .dir [("a.py", .file [0xFF] false)])]⟩

def firstCommit : Commit :=
  ⟨"c0ffee", "c0ffee", "Ada", "2024-01-01T00:00:00+00:00", "first"⟩

def firstRun : Snapshot :=
  { root := "/p"
    config := { Config.standard 1 with outputDir := "/o", ignoreFile := "/i" }
    commits := ⟨true, fun _ => .ok firstCommit, .ok "main", .ok "/h"⟩
    deadline := none }

def quietWorld : Environment :=
  ⟨fun _ => false, fun _ => ⟨0⟩, fun _ => ⟨0, 0⟩, fun _ => .start⟩

theorem firstRun_discovers {fs : FileSystem} {es : List (String × Node)}
    (hroot : fs.kind? [] = some .dir) (hfree : fs.kind? ["i"] = none)
    (hproject : fs.find? ["p"] = some (.dir es))
    (hsources : ((fs.filesBelow ["p"] false).map Scan.slashed).filter Path.isSource = ["a.py"]) :
    firstRun.discover fs none = .ok (firstCommit, ⟨"/p", ["a.py"], 0⟩) := by
  have hmissing : fs.exists? "/i" = false :=
    @FileSystem.not_exists?_of_reaches _ "/i" "i" [] (by decide) hroot hfree
  have hstat := @FileSystem.stat_of_reaches fs "/p" "p" [] _ (by decide) hroot hproject
  exact Snapshot.discover_single rfl rfl hmissing hstat hsources

theorem firstRun_discover :
    firstRun.discover oneSource none = .ok (firstCommit, ⟨"/p", ["a.py"], 0⟩) :=
  firstRun_discovers (by decide) (by decide) rfl (by decide)

private theorem save_in_output {fs : FileSystem} {path name : String}
    (h : (Path.parent? path = some "/o" && FileSystem.reaches path ["o"] name &&
      FileSystem.reaches (Artifact.tempPath path) ["o"] (Path.tempName name)) = true)
    (hroot : fs.kind? [] = some .dir) (hout : fs.kind? ["o"] = none ∨ fs.kind? ["o"] = some .dir)
    (hname : fs.kind? ["o", name] = none) (htemp : fs.kind? ["o", Path.tempName name] = none) :
    ∃ gs, (Artifact.mk path "").save fs = (gs, none) ∧ ∀ p, gs.kind? p =
      if p = ["o"] then some .dir
      else if p = ["o", name] then some (.file (encode "") false) else fs.kind? p := by
  simp only [Bool.and_eq_true, decide_eq_true_eq] at h
  have hdir : FileSystem.reaches "/o" [] "o" = true := by decide
  exact @Artifact.save_ok fs ⟨path, ""⟩ "/o" [] ["o"] name "o" rfl h.1.1 hdir h.1.2 h.2 hroot
    hout hname htemp

theorem persist_in_output :
    (Snapshot.persist oneSource [⟨"/o/a.py.json", ""⟩, ⟨"/o/docshadow.json", ""⟩,
      ⟨"/o/index.json", ""⟩]).2 = none := by
  have hroot : oneSource.kind? [] = some .dir := by decide
  have hfree : ∀ name, oneSource.kind? ["o", name] = none := fun _ => rfl
  obtain ⟨fs₁,hsave₁,hkind₁⟩ := @save_in_output oneSource "/o/a.py.json" "a.py.json"
    (by decide) hroot (.inl rfl) (hfree _) (hfree _)
  obtain ⟨fs₂,hsave₂,hkind₂⟩ := @save_in_output fs₁ "/o/docshadow.json" "docshadow.json"
    (by decide) (by simpa [hkind₁] using hroot) (by simp [hkind₁]) (by simp [hkind₁, hfree])
    (by rw [hkind₁, if_neg (by simp), if_neg (by decide), hfree])
  obtain ⟨_,hsave₃,-⟩ := @save_in_output fs₂ "/o/index.json" "index.json"
    (by decide) (by simpa [hkind₂, hkind₁] using hroot) (by simp [hkind₂])
    (by simp [hkind₂, hkind₁, hfree])
    (by rw [hkind₂, if_neg (by simp), if_neg (by decide), hkind₁, if_neg (by simp),
      if_neg (by decide), hfree])
  simp only [Snapshot.persist, hsave₁, hsave₂, hsave₃]

private theorem firstRun_ran : ∃ (gs : FileSystem) (r : Record),
    firstRun.Ran oneSource gs .finished [r] (some (.ofCommit firstCommit ["a.py"])) := by
  have hextract : firstRun.extract quietWorld oneSource ["a.py"] =
      .ok (firstRun.recordsOf quietWorld oneSource ["a.py"]) := by
    rw [Snapshot.extract_eq]
    rfl
  have hpaths : (firstRun.artifacts quietWorld oneSource firstCommit ["a.py"]
      (firstRun.recordsOf quietWorld oneSource ["a.py"])).map (·.path) =
      ["/o/a.py.json", "/o/docshadow.json", "/o/index.json"] := by decide
  have hperformed := firstRun.layout.performed_of_persist oneSource
    (firstRun.artifacts quietWorld oneSource firstCommit ["a.py"]
      (firstRun.recordsOf quietWorld oneSource ["a.py"]))
  rw [(Snapshot.persist_alike hpaths rfl).trans persist_in_output] at hperformed
  exact ⟨_,_,.wrote ⟨rfl,by decide⟩ firstRun_discover hextract rfl hperformed⟩

theorem firstRun_output : firstRun.layout.output? oneSource = none := by
  have hparts : partsOf firstRun.layout.outputDir = ["", "o"] := by decide
  have hfree : oneSource.kind? ["o"] = none := by decide
  have hplace : oneSource.place firstRun.layout.outputDir = some ["o"] := by
    simp [FileSystem.place, FileSystem.trace, hparts, hfree]
  rw [Layout.output?, hplace]
  rfl

theorem history_keeps_latest_manifest_first_run : ∃ (fs : FileSystem) (r : Record),
    History "/p" firstRun.config fs (some (.ofCommit firstCommit ["a.py"])) [r] ∧
    (Layout.ofConfig firstRun.config "/p").file? fs "index.json" =
      some (encode (Manifest.ofCommit firstCommit ["a.py"]).toJson.pretty) ∧
    (Layout.ofConfig firstRun.config "/p").Complete [r] fs "a.py.json" := by
  obtain ⟨fs,r,hran⟩ := firstRun_ran
  have hstart : History "/p" firstRun.config oneSource none [] :=
    .start ⟨rfl,by decide⟩ firstRun_output
  have h := hstart.finished rfl rfl hran
  have hdescribes := history_keeps_latest_manifest h
  exact ⟨fs,r,h,hdescribes.1,hdescribes.2.1 _ rfl _ (by decide)⟩

end DocSnapshot
