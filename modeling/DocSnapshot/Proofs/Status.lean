import DocSnapshot.Proofs.Setup.Convergence
import DocSnapshot.Proofs.Snapshot.Repeat
import DocSnapshot.Status

/-! The status of a project. After a project has been set up it tells so, and after a run it tells
of that run: the manifest, the sources and whether the commit is still the one checked out. -/
namespace DocSnapshot
open FileSystem (partsOf Grown refusal?)
open DocSnapshot.Path (names isName recordPath)
open Text.Utf8 (encode)

namespace Layout

variable {l : Layout} {fs gs : FileSystem} {base : List String} {files : List (String × String)}

/-- An artifact right in the output directory is found by its path. -/
theorem Written.stat_artifact {stem content : String} (h : l.Written base files fs gs)
    (hgs : gs.Linkless) (he : (stem, content) ∈ files) (hstem : isName stem = true)
    (hfits : l.Fits (files.map (·.1))) :
    ∃ x, gs.stat (l.recordFile stem) = .ok (targetAt base stem, .file (encode content) x) := by
  obtain ⟨n,hn⟩ := h.stands
  have hfind := FileSystem.find?_of_kind?_file (h.file _ he)
  have hname := Path.isName_recordName hstem
  have hleads := (l.within_name hname).leads
  have hrefusal := (hfits stem (List.mem_map_of_mem he)).1
  rw [List.append_nil] at hleads
  refine ⟨fs.executableAt (tempAt base stem),?_⟩
  rw [targetAt_eq (Path.stem_of_name hstem), List.nil_append, ← List.reverse_reverse base]
    at hfind ⊢
  rw [FileSystem.stat, FileSystem.resolve_name hgs hrefusal hleads hname hn]
  simp only [hfind]
  rfl

/-- An output directory that stands is a directory. -/
theorem Stands.isDir (h : l.Stands gs base) (hgs : gs.Linkless) (hroot : gs.kind? [] = some .dir)
    (hne : l.outputDir ≠ "") (hrefusal : refusal? l.outputDir = none) :
    gs.isDir l.outputDir = true := by
  obtain ⟨n,hn⟩ := h
  obtain ⟨es,hes⟩ := FileSystem.resolve_dir hgs hroot hne hrefusal hn
  have hstat : gs.stat l.outputDir = .ok (base.reverse.reverse, .dir es) := by
    rw [FileSystem.stat, hes]
    rfl
  exact FileSystem.isDir_iff.mpr ⟨_,es,hstat⟩

theorem manifestFile_eq (l : Layout) : l.manifestFile = l.recordFile "index" :=
  congrArg (Path.join l.outputDir) (show "index.json" = recordPath "index" by decide)

theorem structureFile_eq (l : Layout) : l.structureFile = l.recordFile "docshadow" :=
  congrArg (Path.join l.outputDir) (show "docshadow.json" = recordPath "docshadow" by decide)

/-- A manifest that stands in its place is loaded. -/
theorem loadManifest_of_stat {m : Manifest} {p : List String} {x : Bool}
    (h : gs.stat l.manifestFile = .ok (p, .file (encode m.toJson.pretty) x)) :
    l.loadManifest gs = .ok (some m) := by
  have hthere := FileSystem.exists?_iff.mpr ⟨_,h⟩
  have hread := FileSystem.readText_eq_ok_iff.mpr ⟨_,x,h⟩
  have htext : Manifest.ofText m.toJson.pretty = .ok m :=
    (Manifest.reads_text Json.Writing.pretty 0 m).whole
  simp only [loadManifest, hthere, if_true, hread, htext]

end Layout

namespace Setup

variable {processors : Nat} {fs made gs : FileSystem} {root : String} {config : Config}

private theorem configPlace_apart {stem name : String} {dirs : List String}
    (h : Path.Stem stem dirs name) (hname : name ≠ "docshadow.config") (base : List String) :
    configPlace root ≠ Layout.targetAt base stem ∧ configPlace root ≠ Layout.tempAt base stem := by
  have hrecord : "docshadow.config.json" = recordPath "docshadow.config" := by decide
  rw [configPlace_eq, Layout.targetAt_eq h, Layout.tempAt_eq h, ← List.append_assoc,
    ← List.append_assoc, hrecord]
  constructor <;> intro heq
  · exact hname (Path.recordPath_inj (List.singleton_inj.mp (List.append_inj_right' heq rfl))).symm
  · exact Path.recordPath_ne_tempName _ _ (List.singleton_inj.mp (List.append_inj_right' heq rfl))

private theorem name_ne_config {dirs : List String} {name : String}
    (h : Path.isSource (Scan.slashed (dirs ++ [name])) = true)
    (hnames : ∀ part ∈ dirs ++ [name], isName part = true) : name ≠ "docshadow.config" := by
  rintro rfl
  obtain ⟨stem,-,hstem⟩ := (Path.isSource_slashed_iff hnames).mp h
  have hlast := congrArg (fun s : String => s.toList.getLast?) hstem
  simp [String.toList_append] at hlast

private theorem Configured.of_run {s : Snapshot} {env : Environment} {rev : Option String}
    {report : DocSnapshot.Report} (h : Configured processors fs s.root config) (hfs : fs.Proper)
    (hlinks : fs.Linkless) (hrun : (s.run env fs rev).result = .ok report) :
    Configured processors (s.run env fs rev).files s.root config := by
  have hplain := s.layout.plain_of_linkless hlinks hfs.kind?_root
  obtain ⟨scan,made,base,hd,-,hgrown,-,-,hwritten⟩ := Snapshot.written_of_run hfs hplain hrun
  generalize (s.run env fs rev).files = gs at hwritten ⊢
  have hscan := (Snapshot.discover_ok_iff.mp hd).2.2
  obtain ⟨dir,es,hroot,-⟩ := Scan.stat_of_run hscan
  have hapart : ∀ stem ∈ Snapshot.stems scan.files, configPlace s.root ≠ Layout.targetAt base stem ∧
      configPlace s.root ≠ Layout.tempAt base stem := by
    intro stem hstem
    rcases List.mem_append.mp hstem with hsource | hfixed
    · obtain ⟨dirs,name,hfound⟩ := Scan.found_of_run hfs hroot hscan hsource
      exact configPlace_apart hfound.stem
        (name_ne_config (hfound.slashed ▸ hfound.isSource) hfound.names) base
    · simp only [List.mem_cons, List.not_mem_nil, or_false] at hfixed
      rcases hfixed with rfl | rfl <;>
        exact configPlace_apart (Path.stem_of_name (by decide)) (by decide) base
  obtain ⟨text,x,hstat,htext⟩ := h
  have hread : fs.read (Config.path s.root) = .ok (encode text) :=
    FileSystem.read_eq_ok_iff.mpr ⟨_,x,FileSystem.resolve_of_stat hstat⟩
  have hread' : gs.read (Config.path s.root) = .ok (encode text) := by
    refine FileSystem.read_of_kept hlinks hfs.kind?_root
      (fun p hdir => hwritten.kept p (hgrown.kind? hdir)) hread fun p n y hp hfile => ?_
    obtain rfl := congrArg Prod.fst (Except.ok.inj (hstat.symm.trans hp))
    refine (hwritten.file_iff hgrown (fun e he => hapart e.1 ?_) _ _).mpr hfile
    rw [← s.stems_of_entries env fs report.commit scan.files]
    exact List.mem_map_of_mem he
  obtain ⟨p,y,hfound⟩ := FileSystem.read_eq_ok_iff.mp hread'
  have hstat' : gs.stat (Config.path s.root) = .ok (p, .file (encode text) y) := by
    rw [FileSystem.stat, hfound]
    rfl
  obtain rfl : p = configPlace s.root :=
    FileSystem.stat_settle (hwritten.linkless (hgrown.linkless hlinks)) hstat'
  exact ⟨text,y,hstat',htext⟩

end Setup

namespace Status

variable {processors : Nat} {fs gs : FileSystem} {root : String} {config : Config}
  {commits : CommitSource}

/-- What the status tells of a project that is set up. -/
structure SetUp (status : Status) (config : Config) : Prop where
  initialized : status.initialized = true
  config : status.config = some config
  configError : status.configError = none

theorem setUp_of_configured (h : Setup.Configured processors fs root config)
    (commits : CommitSource) : (collect processors fs root commits).SetUp config := by
  constructor <;> simp only [collect, h.isPresent, h.loadFrom, if_true] <;> rfl

/-- Where a hook is installed, the status tells so. -/
theorem hook_of_installed {dir script : String} (hrepository : commits.isRepository = true)
    (hdir : commits.hooksDir = .ok dir)
    (hread : fs.readText (Path.join dir Hook.fileName) = .ok script)
    (hinstalled : Hook.isInstalled script = true) :
    (collect processors fs root commits).hook = some .installed := by
  have hstate : Hook.State.ofDir fs dir = .installed := by
    simp only [Hook.State.ofDir, hread, hinstalled, if_true]
  simp only [collect, hrepository, hdir, if_true, Except.toOption, Option.map_some, hstate]

/-- What the status tells of a project whose last run was over `sources` and had that report. -/
structure Documented (status : Status) (s : Snapshot) (gs : FileSystem) (sources : List String)
    (report : Report) : Prop where
  latest : status.latest = some (.ofCommit report.commit sources)
  written : s.layout.file? gs "index.json" =
    some (encode (Manifest.ofCommit report.commit sources).toJson.pretty)
  listed : (Manifest.ofCommit report.commit sources).documentedFiles = report.documentedFiles
  manifestError : status.manifestError = none
  structurePresent : status.structurePresent = true
  outputDirExists : status.outputDirExists = true
  current : status.isCurrent = true ↔
    ∃ head, s.commits.commit none = .ok head ∧ head.hash = report.commit.hash

variable {s : Snapshot} {env : Environment} {rev : Option String} {report : Report} {scan : Scan}

private theorem latest_of_loadManifest {m : Manifest}
    (hconfig : Setup.Configured processors gs root config)
    (hrepository : commits.isRepository = true)
    (h : (Layout.ofConfig config root).loadManifest gs = .ok (some m)) :
    (collect processors gs root commits).latest = some m ∧
      (collect processors gs root commits).manifestError = none ∧
      ((collect processors gs root commits).isCurrent = true ↔
        ∃ head, commits.commit none = .ok head ∧ head.hash = m.commitHash) := by
  have hlatest : (collect processors gs root commits).latest = some m := by
    simp only [collect, hconfig.isPresent, hconfig.loadFrom, if_true, Option.bind_some,
      Except.toOption, Option.getD_some, h]
    rfl
  have hhead : (collect processors gs root commits).head = (commits.commit none).toOption := by
    simp only [collect, hrepository, if_true]
  refine ⟨hlatest,?_,?_⟩
  · simp only [collect, hconfig.isPresent, hconfig.loadFrom, if_true, Option.bind_some,
      Except.toOption, Option.getD_some, h]
    rfl
  · rw [isCurrent, hlatest, hhead]
    cases commits.commit none with
    | error e => simp [Except.toOption]
    | ok head => simp [Except.toOption, eq_comm]

private theorem present_of_configured (hconfig : Setup.Configured processors gs root config)
    (commits : CommitSource) :
    (collect processors gs root commits).structurePresent =
        gs.isFile (Layout.ofConfig config root).structureFile ∧
      (collect processors gs root commits).outputDirExists =
        gs.isDir (Layout.ofConfig config root).outputDir := by
  constructor <;> simp only [collect, hconfig.isPresent, hconfig.loadFrom, if_true,
    Option.bind_some, Except.toOption, Option.getD_some]

private theorem documented_of_run (hconfig : Setup.Configured processors fs s.root s.config)
    (hfs : fs.Proper) (hlinks : fs.Linkless) (hd : s.discover fs rev = .ok (report.commit, scan))
    (h : (s.run env fs rev).result = .ok report) :
    (collect processors (s.run env fs rev).files s.root s.commits).Documented s
      (s.run env fs rev).files scan.files report := by
  have hconfigured := hconfig.of_run hfs hlinks h
  have hfits := Snapshot.fits_of_run hfs hd h
  have hplain := s.layout.plain_of_linkless hlinks hfs.kind?_root
  obtain ⟨scan',made,base,hd',hreport,hgrown,-,-,hwritten⟩ :=
    Snapshot.written_of_run hfs hplain h
  cases hd.symm.trans hd'
  generalize (s.run env fs rev).files = gs at hconfigured hwritten ⊢
  obtain ⟨hrepository,-,hscan⟩ := Snapshot.discover_ok_iff.mp hd
  rw [← s.stems_of_entries env fs report.commit scan.files] at hfits
  have hgs := hwritten.linkless (hgrown.linkless hlinks)
  have hmem := s.mem_entries_manifest env fs report.commit scan.files
  have hmem' := s.mem_entries_structure env fs report.commit scan.files
  obtain ⟨x,hindex⟩ := hwritten.stat_artifact hgs hmem (by decide) hfits
  obtain ⟨y,hmap⟩ := hwritten.stat_artifact hgs hmem' (by decide) hfits
  rw [← Layout.manifestFile_eq] at hindex
  rw [← Layout.structureFile_eq] at hmap
  obtain ⟨hlatest,herror,hcurrent⟩ :=
    latest_of_loadManifest hconfigured hrepository (Layout.loadManifest_of_stat hindex)
  have hfile : gs.isFile s.layout.structureFile = true :=
    FileSystem.isFile_iff.mpr ⟨_,_,y,hmap⟩
  have hdir : gs.isDir s.layout.outputDir = true := by
    obtain ⟨dir,es,hstat,-⟩ := Scan.stat_of_run hscan
    have hne : s.root ≠ "" := by
      intro hempty
      rw [hempty] at hstat
      cases hstat
    have habs : Path.isAbsolute (recordPath "index") = false := by decide
    have hrefusal := (hfits "index" (List.mem_map_of_mem hmem)).1
    exact hwritten.stands.isDir hgs hwritten.plain.root (Path.join_ne_empty hne _)
      (FileSystem.refusal?_of_join habs hrefusal)
  obtain ⟨hpresent,hexists⟩ := present_of_configured hconfigured s.commits
  have hindexName : recordPath "index" = "index.json" := by decide
  refine ⟨hlatest,hindexName ▸ hwritten.file?_eq hmem,?_,herror,hpresent.trans hfile,
    hexists.trans hdir,hcurrent⟩
  rw [hreport]
  rfl

private theorem files_of_configured (hconfig : Setup.Configured processors gs root config)
    (commits : CommitSource) : (collect processors gs root commits).files =
      match Scan.run gs root (.load gs root config.ignoreFile) false with
      | .ok scan => scan.files
      | .error _ => [] := by
  cases hscan : Scan.run gs root (.load gs root config.ignoreFile) false with
  | ok scan => simp [collect, hconfig.isPresent, hconfig.loadFrom, Except.toOption, hscan]
  | error e => simp [collect, hconfig.isPresent, hconfig.loadFrom, Except.toOption, hscan]

private theorem files_of_run (hconfig : Setup.Configured processors fs s.root s.config)
    (hfs : fs.Proper) (hlinks : fs.Linkless) (hd : s.discover fs rev = .ok (report.commit, scan))
    (h : (s.run env fs rev).result = .ok report)
    (hapart : s.IgnoreApart fs (s.run env fs rev).files scan.files)
    (hsteady : s.IgnoreSteady fs (s.run env fs rev).files) :
    (collect processors (s.run env fs rev).files s.root s.commits).files = scan.files := by
  have hconfigured := hconfig.of_run hfs hlinks h
  have hplain := s.layout.plain_of_linkless hlinks hfs.kind?_root
  obtain ⟨scan',made,base,hd',-,hgrown,hordered,-,hwritten⟩ :=
    Snapshot.written_of_run hfs hplain h
  cases hd.symm.trans hd'
  generalize (s.run env fs rev).files = gs at hconfigured hwritten hapart hsteady ⊢
  obtain ⟨hscan,-,-⟩ := Snapshot.discover_again hfs hlinks hd (hwritten.ordered hordered) hgrown
    hwritten hapart hsteady
  rw [files_of_configured hconfigured, hscan]

/-- The status agrees with what was done. After a project has been set up it finds the
configuration and, if that asks for it, the hook. After a run with the configuration of the project
it finds the manifest that was written, and the sources of the run as long as the same is
ignored. -/
theorem collect_agrees (hprocessors : processors < Nat.pow 2 64) (hfs : fs.Proper)
    (hlinks : fs.Linkless) :
    (∀ root commits report, (Setup.run processors fs root commits).2 = .ok report →
      ∃ config, (collect processors (Setup.run processors fs root commits).1 root commits).SetUp
          config ∧
        (config.postCommitHook = true →
          (collect processors (Setup.run processors fs root commits).1 root commits).hook =
            some .installed)) ∧
    ∀ (s : Snapshot) (env : Environment) (rev : Option String) (report : Report),
      Config.loadFrom processors fs (Config.path s.root) = .ok s.config →
      (s.run env fs rev).result = .ok report →
      ∃ scan, s.discover fs rev = .ok (report.commit, scan) ∧
        (collect processors (s.run env fs rev).files s.root s.commits).SetUp s.config ∧
        (collect processors (s.run env fs rev).files s.root s.commits).Documented s
          (s.run env fs rev).files scan.files report ∧
        (rev = none →
          (collect processors (s.run env fs rev).files s.root s.commits).isCurrent = true) ∧
        (s.IgnoreApart fs (s.run env fs rev).files scan.files →
          s.IgnoreSteady fs (s.run env fs rev).files →
          (collect processors (s.run env fs rev).files s.root s.commits).files.map recordPath =
            report.documentedFiles) := by
  constructor
  · intro root commits report h
    obtain ⟨hrepository,config,hconfigured,hhook⟩ :=
      Setup.run_configures hlinks hfs.kind?_root hprocessors h
    refine ⟨config,setUp_of_configured hconfigured commits,fun hasked => ?_⟩
    obtain ⟨dir,script,hdir,hread,hinstalled⟩ := hhook hasked
    exact hook_of_installed hrepository hdir hread hinstalled
  · intro s env rev report hload h
    have hconfig := Setup.configured_of_loadFrom hlinks hload
    obtain ⟨scan,hd,-,-⟩ := Snapshot.persist_of_run h
    have hdocumented : (collect processors _ s.root s.commits).Documented s _ scan.files report :=
      documented_of_run hconfig hfs hlinks hd h
    refine ⟨scan,hd,setUp_of_configured (hconfig.of_run hfs hlinks h) s.commits,hdocumented,?_,?_⟩
    · rintro rfl
      exact hdocumented.current.mpr ⟨_,(Snapshot.discover_ok_iff.mp hd).2.1,rfl⟩
    · intro hapart hsteady
      rw [files_of_run hconfig hfs hlinks hd h hapart hsteady]
      exact hdocumented.listed

private def projectWith (config : Config) (others : List (String × Node)) : FileSystem :=
  ⟨.dir [("p", .dir (("a.py", .file [0xFF] false) ::
    ("docshadow.config.json", .file (encode config.toJson.pretty) false) :: others))]⟩

private theorem loadFrom_projectWith (processors : Nat) {config : Config} (h : config.Fits)
    (others : List (String × Node)) :
    Config.loadFrom processors (projectWith config others) (Config.path "/p") = .ok config := by
  have hstat : (projectWith config others).stat (Config.path "/p") =
      .ok (["p", "docshadow.config.json"], .file (encode config.toJson.pretty) false) := by
    have hreaches : FileSystem.reaches (Config.path "/p") ["p"] "docshadow.config.json" = true := by
      decide
    have hkind : (projectWith config others).kind? (["p"] ++ ["docshadow.config.json"]) =
        some (.file (encode config.toJson.pretty) false) := rfl
    rw [FileSystem.stat, FileSystem.resolve_of_reaches hreaches rfl (by simp only [hkind]; simp)]
    rfl
  have hread := FileSystem.readText_eq_ok_iff.mpr ⟨_,_,hstat⟩
  have htext : Config.ofText processors config.toJson.pretty = .ok config :=
    (Config.reads_text Json.Writing.pretty 0 processors h).whole
  simp only [Config.loadFrom, hread, htext]

private def standardRun : Snapshot := { firstRun with config := .standard 1 }

private theorem standardRun_reports : ∃ report,
    (standardRun.run quietWorld (projectWith (.standard 1) []) none).result = .ok report ∧
      standardRun.discover (projectWith (.standard 1) []) none =
        .ok (report.commit, ⟨"/p", ["a.py"], 0⟩) ∧
      report.documentedFiles = ["a.py.json"] := by
  have hproject : (projectWith (.standard 1) []).Proper := ⟨⟨rfl,by decide⟩,by decide⟩
  have hstat : (projectWith (.standard 1) []).stat "/p" = .ok (["p"], .dir _) :=
    @FileSystem.stat_of_reaches (projectWith (.standard 1) []) "/p" "p" [] _ (by decide) rfl rfl
  have hmissing : (projectWith (.standard 1) []).exists? "/p/.docignore" = false :=
    @FileSystem.not_exists?_of_reaches _ _ ".docignore" ["p"] (by decide) rfl rfl
  have hd : standardRun.discover (projectWith (.standard 1) []) none =
      .ok (firstCommit, ⟨"/p", ["a.py"], 0⟩) :=
    Snapshot.discover_single rfl rfl hmissing hstat (by decide)
  have hclear : Layout.Clear (Snapshot.stems ["a.py"]) := Layout.clear_of_names (by decide)
  have hfits : standardRun.layout.Fits (Snapshot.stems ["a.py"]) := by
    unfold Layout.Fits
    decide
  have hresult := @Snapshot.run_ok_of_absent standardRun quietWorld _ _ _ _ _ _ hproject
    (FileSystem.linkless_of_root (by decide)) hstat (by decide) rfl hd (fun _ _ => rfl) hclear hfits
  exact ⟨_,hresult,hd,by simp [Snapshot.report, Manifest.ofCommit, recordPath]⟩

/-- A project that has only been set up, and one over which there has been a run. -/
theorem collect_agrees_after_setup_and_run :
    (∃ gs report, Setup.run 4 Setup.bareProject "/p" Setup.bareCommits = (gs, .ok report) ∧
      (collect 4 gs "/p" Setup.bareCommits).initialized = true ∧
      (collect 4 gs "/p" Setup.bareCommits).hook = some .installed) ∧
    ∃ gs report, (standardRun.run quietWorld (projectWith (.standard 1) []) none).files = gs ∧
      (standardRun.run quietWorld (projectWith (.standard 1) []) none).result = .ok report ∧
      (collect 1 gs "/p" firstRun.commits).files.map recordPath = ["a.py.json"] ∧
      (collect 1 gs "/p" firstRun.commits).isCurrent = true := by
  have hfits : 4 < Nat.pow 2 64 := by decide
  have hone : 1 < Nat.pow 2 64 := by decide
  constructor
  · obtain ⟨gs,report,hrun,-,hconfigured⟩ := Setup.bareProject_runs
    have hbare : Setup.bareProject.Proper := ⟨⟨rfl,by decide⟩,by decide⟩
    have hlinks : Setup.bareProject.Linkless := FileSystem.linkless_of_root (by decide)
    obtain ⟨config,hsetUp,hhook⟩ :=
      (collect_agrees hfits hbare hlinks).1 "/p" Setup.bareCommits report (by rw [hrun])
    rw [hrun] at hsetUp hhook
    have hconfig := (setUp_of_configured hconfigured Setup.bareCommits).config
    obtain rfl := Option.some.inj (hconfig.symm.trans hsetUp.config)
    exact ⟨gs,report,hrun,hsetUp.initialized,hhook rfl⟩
  · obtain ⟨report,hrun,hd,hlisted⟩ := standardRun_reports
    have hproject : (projectWith (.standard 1) []).Proper := ⟨⟨rfl,by decide⟩,by decide⟩
    have hlinks : (projectWith (.standard 1) []).Linkless :=
      FileSystem.linkless_of_root (by decide)
    have hapart := @Snapshot.ignoreApart_of_settled standardRun _ _ ["a.py"] ["p", ".docignore"]
      ["p", ".docshadow"] hlinks (Snapshot.linkless_of_run hproject hlinks hrun) (by decide)
      (by decide) (by decide)
    have hsteady := @Snapshot.ignoreSteady_of_down standardRun (projectWith (.standard 1) [])
      (standardRun.run quietWorld (projectWith (.standard 1) []) none).files (by decide)
    have hstandard : (Config.standard 1).Fits := ⟨hone,by simp [Config.standard]⟩
    have hload := loadFrom_projectWith 1 hstandard []
    obtain ⟨scan,hd',-,-,hcurrent,hfiles⟩ :=
      (collect_agrees hone hproject hlinks).2 standardRun quietWorld none report hload hrun
    cases hd.symm.trans hd'
    exact ⟨_,report,rfl,hrun,(hfiles hapart hsteady).trans hlisted,hcurrent rfl⟩

private def roundaboutProject : FileSystem :=
  projectWith roundaboutRun.config [("ignore", .file (encode "a.py\n") false)]

private theorem roundaboutProject_holds : Roundabout roundaboutProject :=
  ⟨⟨⟨rfl,by decide⟩,by decide⟩,FileSystem.linkless_of_root (by decide),
    ⟨_,@FileSystem.stat_of_reaches roundaboutProject "/p" "p" [] _ (by decide) (by decide) rfl⟩,
    by decide,by decide,rfl⟩

/-- The ignore file is none of the artifacts, and yet the status finds other sources than the
run. -/
theorem collect_misses_source : ∃ report : Report,
    roundaboutProject.Proper ∧ roundaboutProject.Linkless ∧
    Config.loadFrom 1 roundaboutProject (Config.path "/p") = .ok roundaboutRun.config ∧
    (roundaboutRun.run quietWorld roundaboutProject none).result = .ok report ∧
    roundaboutRun.IgnoreApart roundaboutProject
      (roundaboutRun.run quietWorld roundaboutProject none).files ["a.py"] ∧
    (collect 1 (roundaboutRun.run quietWorld roundaboutProject none).files "/p"
      roundaboutRun.commits).files.map recordPath ≠ report.documentedFiles := by
  obtain ⟨report,hrun,hlisted⟩ := roundaboutProject_holds.reports
  have hproper := roundaboutProject_holds.proper
  have hlinks := roundaboutProject_holds.linkless
  have hfits : roundaboutRun.config.Fits := ⟨by decide,by simp [roundaboutRun, Config.standard]⟩
  have hload := loadFrom_projectWith 1 hfits [("ignore", .file (encode "a.py\n") false)]
  refine ⟨report,hproper,hlinks,hload,hrun,roundaboutProject_holds.ignoreApart hrun,?_⟩
  have hconfig : Setup.Configured 1 roundaboutProject roundaboutRun.root roundaboutRun.config :=
    Setup.configured_of_loadFrom hlinks hload
  have hconfigured := hconfig.of_run hproper hlinks hrun
  have hother := fun scan => @Roundabout.finds_other _ _ scan roundaboutProject_holds hrun
  rw [hlisted]
  generalize (roundaboutRun.run quietWorld roundaboutProject none).files = gs
    at hconfigured hother ⊢
  have hfiles : (collect 1 gs "/p" roundaboutRun.commits).files =
      match Scan.run gs "/p" (.load gs "/p" "out/../ignore") false with
      | .ok scan => scan.files
      | .error _ => [] := files_of_configured hconfigured roundaboutRun.commits
  rw [hfiles]
  split
  · next scan hscan => exact hother scan hscan
  · simp

end Status

end DocSnapshot
