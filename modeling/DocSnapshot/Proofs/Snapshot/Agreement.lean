import DocSnapshot.Proofs.FileSystem.Lookup
import DocSnapshot.Proofs.Snapshot.History
import DocSnapshot.Proofs.Snapshot.Written
import DocSnapshot.Proofs.Sources

/-! A run that succeeds leaves artifacts that agree with one another, with its report and with the
sources, and it changes no file outside the output directory. -/
namespace DocSnapshot
open FileSystem (partsOf Grown refusal?)
open DocSnapshot.Path (recordPath)
open Text.Utf8 (encode)

theorem Scan.Found.stem {fs : FileSystem} {dir dirs : List String} {source name : String}
    (h : Scan.Found fs dir source dirs name) : Path.Stem source dirs name :=
  ⟨h.slashed,h.names,h.shown⟩

namespace Layout

def entries (records : List Record) (d : StructureDocument) (m : Manifest) :
    List (String × String) :=
  records.map (fun r => (r.path, r.toJson.pretty)) ++
    [("docshadow", d.toJson.pretty), ("index", m.toJson.pretty)]

theorem artifacts_eq (l : Layout) (records : List Record) (d : StructureDocument) (m : Manifest) :
    l.artifacts records d m = (entries records d m).map l.artifact := by
  rw [entries, List.map_append, List.map_map]
  rfl

end Layout

namespace Snapshot

def document (s : Snapshot) (env : Environment) (fs : FileSystem) (commit : Commit)
    (sources : List String) : StructureDocument :=
  { projectName := s.config.nameFor fs s.root
    generatedAt := env.clock sources.length
    commitHash := commit.hash
    structureMap := .build sources }

def entries (s : Snapshot) (env : Environment) (fs : FileSystem) (commit : Commit)
    (sources : List String) : List (String × String) :=
  Layout.entries (s.recordsOf env fs sources) (s.document env fs commit sources)
    (.ofCommit commit sources)

variable {s : Snapshot} {env : Environment} {fs : FileSystem} {rev : Option String}
  {commit : Commit} {scan : Scan} {report : Report} {r : Record}

theorem artifacts_recordsOf (s : Snapshot) (env : Environment) (fs : FileSystem) (commit : Commit)
    (sources : List String) :
    s.artifacts env fs commit sources (s.recordsOf env fs sources) =
      (s.entries env fs commit sources).map s.layout.artifact :=
  s.layout.artifacts_eq ..

theorem mem_recordsOf {sources : List String} (h : r ∈ s.recordsOf env fs sources) :
    r = Record.ofFile fs s.root r.path r.generatedAt := by
  obtain ⟨⟨source,i⟩,-,rfl⟩ := List.mem_map.mp h
  rfl

theorem exists_record (s : Snapshot) (env : Environment) (fs : FileSystem) {sources : List String}
    {source : String} (h : source ∈ sources) :
    ∃ r ∈ s.recordsOf env fs sources, r.path = source := by
  rw [← s.recordsOf_paths env fs sources] at h
  exact List.mem_map.mp h

/-- What the artifacts of a snapshot are named after. -/
def stems (sources : List String) : List String := sources ++ ["docshadow", "index"]

theorem stems_of_entries (s : Snapshot) (env : Environment) (fs : FileSystem) (commit : Commit)
    (sources : List String) :
    (s.entries env fs commit sources).map (·.1) = stems sources := by
  have hpaths := s.recordsOf_paths env fs sources
  rw [entries, Layout.entries, List.map_append, List.map_map]
  exact congrArg (· ++ _) hpaths

theorem mem_entries_record {sources : List String} (h : r ∈ s.recordsOf env fs sources) :
    (r.path, r.toJson.pretty) ∈ s.entries env fs commit sources :=
  List.mem_append_left _ (List.mem_map_of_mem h)

theorem mem_entries_structure (s : Snapshot) (env : Environment) (fs : FileSystem)
    (commit : Commit) (sources : List String) :
    ("docshadow", (s.document env fs commit sources).toJson.pretty) ∈
      s.entries env fs commit sources :=
  List.mem_append_right _ List.mem_cons_self

theorem mem_entries_manifest (s : Snapshot) (env : Environment) (fs : FileSystem)
    (commit : Commit) (sources : List String) :
    ("index", (Manifest.ofCommit commit sources).toJson.pretty) ∈
      s.entries env fs commit sources :=
  List.mem_append_right _ (List.mem_cons_of_mem _ List.mem_cons_self)

/-- The artifacts of a scan are named after different stems. -/
theorem stems_apart {m : Ignore.Matcher} (hfs : fs.Proper)
    (h : Scan.run fs s.root m false = .ok scan) :
    (∀ stem ∈ stems scan.files, ∃ dirs name, Path.Stem stem dirs name) ∧
      (stems scan.files).Nodup := by
  obtain ⟨dir,es,hstat,-⟩ := Scan.stat_of_run h
  refine ⟨fun stem hstem => ?_,List.nodup_append.mpr ⟨?_,by decide,?_⟩⟩
  · rcases List.mem_append.mp hstem with hsource | hname
    · obtain ⟨dirs,name,hfound⟩ := Scan.found_of_run hfs hstat h hsource
      exact ⟨dirs,name,hfound.stem⟩
    · have hname : Path.isName stem = true := by
        simp only [List.mem_cons, List.not_mem_nil, or_false] at hname
        rcases hname with rfl | rfl <;> decide
      exact ⟨[],stem,Path.stem_of_name hname⟩
  · refine (Scan.pairwise_apart hfs h).imp fun hapart heq => ?_
    subst heq
    exact hapart.1 (List.prefix_refl _)
  · rintro source hsource name hname rfl
    obtain ⟨dirs,name,hfound⟩ := Scan.found_of_run hfs hstat h hsource
    have hnone : Path.isSource source = false := by
      simp only [List.mem_cons, List.not_mem_nil, or_false] at hname
      rcases hname with rfl | rfl <;> decide
    exact absurd hfound.isSource (by simp [hnone])

/-- A run succeeds by writing its artifacts. -/
theorem persist_of_run (h : (s.run env fs rev).result = .ok report) :
    ∃ scan, s.discover fs rev = .ok (report.commit, scan) ∧
      report = s.report report.commit scan (s.recordsOf env fs scan.files) ∧
      persist fs ((s.entries env fs report.commit scan.files).map s.layout.artifact) =
        ((s.run env fs rev).files, none) := by
  have hcourse := s.run_course env fs rev
  generalize s.run env fs rev = o at h hcourse ⊢
  cases hcourse with
  | @written commit scan after hd hnone hpersist =>
    cases h
    rw [artifacts_recordsOf] at hpersist
    exact ⟨scan,hd,rfl,hpersist⟩
  | _ => cases h

/-- What a run that succeeds has written, and over what. -/
theorem written_of_run (hfs : fs.Proper) (hp : s.layout.Plain fs)
    (h : (s.run env fs rev).result = .ok report) :
    ∃ scan made base, s.discover fs rev = .ok (report.commit, scan) ∧
      report = s.report report.commit scan (s.recordsOf env fs scan.files) ∧
      Grown fs made ∧ made.root.ordered = true ∧ s.layout.Stands made base ∧
      s.layout.Written base (s.entries env fs report.commit scan.files) made
        (s.run env fs rev).files := by
  obtain ⟨scan,hd,hreport,hpersist⟩ := persist_of_run h
  obtain ⟨hstems,hnodup⟩ := stems_apart hfs (discover_ok_iff.mp hd).2.2
  rw [← s.stems_of_entries env fs report.commit scan.files] at hstems hnodup
  obtain ⟨made,base,hgrown,hordered,hstands,hwritten⟩ :=
    hp.written (by simp [entries, Layout.entries]) (fun e he => hstems e.1 (List.mem_map_of_mem he))
      (List.pairwise_map.mp hnodup) hpersist
  exact ⟨scan,made,base,hd,hreport,hgrown,hordered hfs.ordered,hstands,hwritten⟩

end Snapshot

theorem firstRun_reports : ∃ report,
    (firstRun.run quietWorld oneSource none).result = .ok report ∧
      report.documentedFiles = ["a.py.json"] := by
  obtain ⟨-,hresult⟩ := @Snapshot.run_uninterrupted firstRun quietWorld _ _ _ _ firstRun_discover
    (fun _ _ => rfl)
  have hpaths : (firstRun.artifacts quietWorld oneSource firstCommit ["a.py"]
      (firstRun.recordsOf quietWorld oneSource ["a.py"])).map (·.path) =
      ["/o/a.py.json", "/o/docshadow.json", "/o/index.json"] := by decide
  rw [(Snapshot.persist_alike hpaths rfl).trans persist_in_output] at hresult
  exact ⟨_,hresult,by decide⟩

end DocSnapshot
