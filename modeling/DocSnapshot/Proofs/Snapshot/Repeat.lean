import DocSnapshot.Proofs.Snapshot.Clash

/-! A run over what a run has left. It finds the same sources, extracts the same from them and
writes the same artifacts again, with other times in the records and in the structure map. -/
namespace DocSnapshot
open FileSystem (partsOf maxLinks refusal? Grown Linkless)
open DocSnapshot.Path (names isName recordPath tempName)
open Text.Utf8 (encode)

namespace Layout

variable {l : Layout} {fs made gs hs : FileSystem} {base : List String}
  {files more : List (String × String)}

/-- Whether the artifact named after a stem holds `before` once a run over `fs` has left `gs`, and
`after` once a second run has left `hs`. A temporary file that the first run finds in its way stays
as executable as it is. The second run finds none. -/
def Rewritten (base : List String) (fs gs hs : FileSystem) (stem before after : String) : Prop :=
  gs.kind? (targetAt base stem) =
      some (.file (encode before) (fs.executableAt (tempAt base stem))) ∧
    hs.kind? (targetAt base stem) = some (.file (encode after) false)

/-- Without links the place of an output directory can be read off its path. -/
theorem Stands.settle (h : l.Stands fs base) (hfs : fs.Linkless) :
    base = (FileSystem.settle [] (names l.outputDir)).reverse := by
  obtain ⟨n,hn⟩ := h
  have hbase : base.reverse = FileSystem.settle [] (names l.outputDir) :=
    congrArg Prod.snd (FileSystem.trace_settle hfs hn)
  rw [← hbase, List.reverse_reverse]

theorem Written.linkless (h : l.Written base files fs gs) (hfs : fs.Linkless) : gs.Linkless := by
  intro p target
  by_cases hne : ∀ e ∈ files, p ≠ targetAt base e.1 ∧ p ≠ tempAt base e.1
  · rcases h.other p hne with hsame | ⟨-,hdir,-⟩
    · rw [hsame]
      exact hfs p target
    · simp [hdir]
  · simp only [not_forall, Classical.not_and_iff_not_or_not, Classical.not_not] at hne
    obtain ⟨e,he,rfl | rfl⟩ := hne
    · simp [h.file e he]
    · simp [h.temp e he]

/-- Files other than artifacts are as they were. -/
theorem Written.file_iff (h : l.Written base files made gs) (hgrown : Grown fs made)
    {p : List String} (hne : ∀ e ∈ files, p ≠ targetAt base e.1 ∧ p ≠ tempAt base e.1)
    (bytes : List UInt8) (x : Bool) :
    gs.kind? p = some (.file bytes x) ↔ fs.kind? p = some (.file bytes x) := by
  rcases h.other p hne with hsame | ⟨hnone,hdir,-⟩
  · rw [hsame]
    rcases hgrown p with hbefore | ⟨hnone,hdir⟩
    · rw [hbefore]
    · simp [hnone, hdir]
  · rcases hgrown p with hbefore | ⟨-,hmade⟩
    · simp [hdir, ← hbefore, hnone]
    · rw [hnone] at hmade
      cases hmade

/-- The directories above an artifact are there. -/
theorem Written.dir_above (h : l.Written base files fs gs) {e : String × String} (he : e ∈ files)
    {dirs path : List String} {name : String} (hstem : Path.Stem e.1 dirs name)
    (hpath : path <+: dirs) : gs.kind? (base ++ path) = some .dir := by
  obtain ⟨rest,rfl⟩ := hpath
  have hfile := h.file e he
  rw [targetAt_eq hstem, List.append_assoc, ← List.append_assoc] at hfile
  exact @FileSystem.kind?_above gs _ (rest ++ [recordPath name]) (by simp)
    (hfile ▸ Option.some_ne_none _)

/-- Where artifacts are written there is room to write them again. -/
theorem Written.room (h : l.Written base files fs gs) (hgs : gs.Linkless) :
    Room gs (names l.outputDir) base [] (files.map (·.1)) := by
  obtain ⟨n,hn⟩ := h.stands
  obtain rfl : n = maxLinks := congrArg Prod.fst (FileSystem.trace_settle hgs hn)
  refine ⟨hgs,h.plain.root,hn,?_,?_,?_⟩
  · intro stem hmem dirs name hstem zs hzs
    obtain ⟨e,he,rfl⟩ := List.mem_map.mp hmem
    exact .inr (h.dir_above he hstem hzs)
  · intro stem hmem
    obtain ⟨e,he,rfl⟩ := List.mem_map.mp hmem
    simp [h.file e he]
  · intro stem hmem
    obtain ⟨e,he,rfl⟩ := List.mem_map.mp hmem
    simp [h.temp e he]

/-- Paths that were written to can be asked for. -/
theorem fits_of_persist (hstems : ∀ stem ∈ files.map (·.1), ∃ dirs name, Path.Stem stem dirs name)
    (h : Snapshot.persist fs (files.map l.artifact) = (gs, none)) : l.Fits (files.map (·.1)) := by
  induction files generalizing fs with
  | nil => simp [Fits]
  | cons e files ih =>
    rw [List.map_cons, List.forall_mem_cons] at hstems
    obtain ⟨⟨dirs,name,hstem⟩,hstems⟩ := hstems
    have hpath : (l.artifact e).path = l.recordFile e.1 := rfl
    have hwithin := (l.within_recordFile hstem.slashed hstem.names).1
    rw [← hpath] at hwithin
    obtain ⟨dir,hdir,-⟩ := hwithin.leads.parent? hwithin.name
    obtain ⟨mid,hsave,hrest⟩ := persist_cons h
    obtain ⟨made,part,-,hwrite,hrename⟩ := save_steps hdir hsave
    have htarget := FileSystem.refusal?_of_rename hrename
    have htemp := FileSystem.refusal?_of_write hwrite
    rw [hpath] at htarget htemp
    rw [List.map_cons, Fits, List.forall_mem_cons]
    exact ⟨⟨htarget,htemp⟩,ih hstems hrest⟩

/-- Artifacts are written again over those that are there. -/
theorem Written.again (h : l.Written base files fs gs) (hgs : gs.Linkless)
    (hsame : more.map (·.1) = files.map (·.1))
    (hstems : ∀ stem ∈ files.map (·.1), ∃ dirs name, Path.Stem stem dirs name)
    (hnodup : (files.map (·.1)).Nodup) (hfits : l.Fits (files.map (·.1))) :
    ∃ hs, Snapshot.persist gs (more.map l.artifact) = (hs, none) ∧ l.Written base more gs hs := by
  have hmem : ∀ e ∈ more, e.1 ∈ files.map (·.1) := fun e he => hsame ▸ List.mem_map_of_mem he
  have hnone := (h.room hgs).persist (h.clear hstems) hfits (List.append_nil _).symm (by simp) hmem
  rcases hpersist : Snapshot.persist gs (more.map l.artifact) with ⟨hs,failure⟩
  rw [hpersist] at hnone
  cases hnone
  exact ⟨hs,rfl,h.stands.written h.plain (fun e he => hstems e.1 (hmem e he))
    (List.pairwise_map.mp (hsame ▸ hnodup)) hpersist⟩

/-- Where artifacts are written a second time, nothing lies beside them any more. -/
theorem Written.rewritten (h : l.Written base files made gs) (h' : l.Written base more gs hs)
    (hgrown : Grown fs made) {stem before after : String} (he : (stem, before) ∈ files)
    (he' : (stem, after) ∈ more) : Rewritten base fs gs hs stem before after := by
  have hfirst := h.file _ he
  have hsecond := h'.file _ he'
  rw [hgrown.executableAt] at hfirst
  rw [FileSystem.executableAt_of_none (h.temp _ he)] at hsecond
  exact ⟨hfirst,hsecond⟩

/-- Artifacts that are written a second time are all that changes. -/
theorem Written.kind?_again (h : l.Written base files made gs) (h' : l.Written base more gs hs)
    (hsame : more.map (·.1) = files.map (·.1)) {p : List String}
    (hp : ∀ e ∈ files, p ≠ targetAt base e.1) : hs.kind? p = gs.kind? p := by
  have hmem : ∀ e' ∈ more, ∃ e ∈ files, e.1 = e'.1 := fun e' he' =>
    List.mem_map.mp (hsame ▸ List.mem_map_of_mem he')
  by_cases htemp : ∃ e' ∈ more, p = tempAt base e'.1
  · obtain ⟨e',he',rfl⟩ := htemp
    obtain ⟨e,he,heq⟩ := hmem e' he'
    rw [h'.temp e' he', ← heq, h.temp e he]
  · have hne : ∀ e' ∈ more, p ≠ targetAt base e'.1 ∧ p ≠ tempAt base e'.1 := by
      refine fun e' he' => ⟨?_,fun heq => htemp ⟨e',he',heq⟩⟩
      obtain ⟨e,he,heq⟩ := hmem e' he'
      exact heq ▸ hp e he
    rcases h'.other p hne with hkind | ⟨hfree,-,e',he',dirs,name,path,hstem,hpath,rfl⟩
    · exact hkind
    · obtain ⟨e,he,heq⟩ := hmem e' he'
      rw [h.dir_above he (heq ▸ hstem) hpath] at hfree
      cases hfree

end Layout

namespace Snapshot

variable {s : Snapshot} {env again : Environment} {fs gs : FileSystem} {rev rev' : Option String}
  {commit : Commit} {scan : Scan} {report : Report} {later : CommitSource} {sources : List String}

def ignorePath (s : Snapshot) : String := Path.join s.root s.config.ignoreFile

/-- Whether the ignore file is none of the artifacts and temporary files of a run that makes `gs` of
`fs`. -/
def IgnoreApart (s : Snapshot) (fs gs : FileSystem) (sources : List String) : Prop :=
  ∀ base, s.layout.Stands gs base → ∀ stem ∈ stems sources, ∀ p n,
    fs.stat s.ignorePath = .ok (p, n) ∨ gs.stat s.ignorePath = .ok (p, n) →
    p ≠ Layout.targetAt base stem ∧ p ≠ Layout.tempAt base stem

/-- Whether the path of the ignore file goes up only from directories that were there before a run
that makes `gs` of `fs`. -/
def IgnoreSteady (s : Snapshot) (fs gs : FileSystem) : Prop :=
  ∀ above below, partsOf s.ignorePath = above ++ ".." :: below →
    gs.trace false maxLinks [] above ≠ none → fs.trace false maxLinks [] above ≠ none

theorem fits_of_run (hfs : fs.Proper) (hd : s.discover fs rev = .ok (commit, scan))
    (h : (s.run env fs rev).result = .ok report) : s.layout.Fits (stems scan.files) := by
  obtain ⟨scan',hd',-,hpersist⟩ := persist_of_run h
  cases hd.symm.trans hd'
  have hstems := (stems_apart hfs (discover_ok_iff.mp hd).2.2).1
  rw [← s.stems_of_entries env fs report.commit scan.files] at hstems ⊢
  exact Layout.fits_of_persist hstems hpersist

private theorem load_of_spared {base : List String} {files : List (String × String)}
    {made : FileSystem} (hapart : s.IgnoreApart fs gs sources) (hsteady : s.IgnoreSteady fs gs)
    (hfs : fs.Linkless) (hroot : fs.kind? [] = some .dir) (hgrown : Grown fs made)
    (hwritten : s.layout.Written base files made gs) (hstems : files.map (·.1) = stems sources) :
    Ignore.Matcher.load gs s.root s.config.ignoreFile =
      Ignore.Matcher.load fs s.root s.config.ignoreFile := by
  have hkept : ∀ p, fs.kind? p = some .dir → gs.kind? p = some .dir := fun p hdir =>
    hwritten.kept p (hgrown.kind? hdir)
  have hgs := hwritten.linkless (hgrown.linkless hfs)
  have hsame : ∀ p n, fs.stat s.ignorePath = .ok (p, n) ∨ gs.stat s.ignorePath = .ok (p, n) →
      ∀ bytes x, gs.kind? p = some (.file bytes x) ↔ fs.kind? p = some (.file bytes x) := by
    intro p n hstat
    refine hwritten.file_iff hgrown fun e he => ?_
    exact hapart base hwritten.stands e.1 (hstems ▸ List.mem_map_of_mem he) p n hstat
  refine Ignore.Matcher.load_congr fun bytes => ⟨fun hread => ?_,fun hread => ?_⟩
  · have hfile := fun p n x hstat => (hsame p n (.inr hstat) bytes x).mp
    exact FileSystem.read_of_added hfs hgs hroot (hkept _ hroot) hread hfile hsteady
  · have hfile := fun p n x hstat => (hsame p n (.inl hstat) bytes x).mpr
    exact FileSystem.read_of_kept hfs hroot hkept hread hfile

theorem nameFor_eq {dir : List String} {es es' : List (String × Node)}
    (hstat : fs.stat s.root = .ok (dir, .dir es)) (hstat' : gs.stat s.root = .ok (dir, .dir es')) :
    s.config.nameFor gs s.root = s.config.nameFor fs s.root := by
  have hdir : Config.dirName gs s.root = Config.dirName fs s.root := by
    rw [Config.dirName, Config.dirName, FileSystem.canonical, FileSystem.canonical, hstat, hstat']
    rfl
  rw [Config.nameFor, Config.nameFor, hdir]

private theorem record_alike {r r' : Record} (hr : r ∈ s.recordsOf env fs sources)
    (hr' : r' ∈ s.recordsOf again gs sources) (hpath : r'.path = r.path)
    (hread : gs.read (Path.join s.root r.path) = fs.read (Path.join s.root r.path)) :
    r' = { r with generatedAt := r'.generatedAt } := by
  have hbody : r'.body = r.body := by
    rw [mem_recordsOf hr', mem_recordsOf hr, hpath, Record.ofFile, Record.ofFile]
    simp only [hread]
  rw [← hbody, ← hpath]

/-- Runs that read the same in their sources report the same. -/
theorem report_alike (hread : ∀ source ∈ scan.files,
      gs.read (Path.join s.root source) = fs.read (Path.join s.root source)) :
    s.report commit scan (s.recordsOf again gs scan.files) =
      s.report commit scan (s.recordsOf env fs scan.files) := by
  have hfailed : ((s.recordsOf again gs scan.files).filter (·.body.isError)).map (·.path) =
      ((s.recordsOf env fs scan.files).filter (·.body.isError)).map (·.path) := by
    simp only [recordsOf, List.filter_map, List.map_map]
    have hpred : ∀ e ∈ scan.files.zipIdx,
        (Record.ofFile gs s.root e.1 (again.clock e.2)).body.isError =
          (Record.ofFile fs s.root e.1 (env.clock e.2)).body.isError := by
      intro e he
      simp only [Record.ofFile, hread e.1 (List.fst_mem_of_mem_zipIdx he)]
    exact congrArg (List.map Prod.fst) (List.filter_congr hpred)
  simp only [report, hfailed]

/-- What a run leaves shows the next one the same sources, with the same in them. -/
theorem discover_again (hfs : fs.Proper) (hlinks : fs.Linkless)
    (hd : s.discover fs rev = .ok (commit, scan)) (hgs : gs.root.ordered = true) {made : FileSystem}
    {base : List String} (hgrown : Grown fs made)
    (hwritten : s.layout.Written base (s.entries env fs commit scan.files) made gs)
    (hapart : s.IgnoreApart fs gs scan.files) (hsteady : s.IgnoreSteady fs gs) :
    Scan.run gs s.root (.load gs s.root s.config.ignoreFile) false = .ok scan ∧
      s.config.nameFor gs s.root = s.config.nameFor fs s.root ∧
      ∀ source ∈ scan.files,
        gs.read (Path.join s.root source) = fs.read (Path.join s.root source) := by
  have hscan := (discover_ok_iff.mp hd).2.2
  have hroot := hfs.kind?_root
  have hkept : ∀ p, fs.kind? p = some .dir → gs.kind? p = some .dir := fun p hdir =>
    hwritten.kept p (hgrown.kind? hdir)
  obtain ⟨dir,es,hstat,-⟩ := Scan.stat_of_run hscan
  obtain ⟨es',hstat'⟩ := FileSystem.stat_of_kept hlinks
    (hwritten.linkless (hgrown.linkless hlinks)) hroot hkept hstat
  have hdir := FileSystem.kind?_of_find? (FileSystem.find?_of_stat hroot hstat)
  refine ⟨?_,nameFor_eq hstat hstat',fun source hsource => ?_⟩
  · rw [load_of_spared hapart hsteady hlinks hroot hgrown hwritten
        (s.stems_of_entries env fs commit scan.files),
      Scan.run_congr hfs.ordered hgs hstat hstat' hdir (hkept _ hdir) fun path hsource => ?_, hscan]
    refine exists₂_congr fun bytes x => (hwritten.file_iff hgrown ?_ bytes x).symm
    exact fun e _ => Layout.not_target_of_source hsource base e.1
  · obtain ⟨dirs,name,hfound⟩ := Scan.found_of_run hfs hstat hscan hsource
    obtain ⟨bytes,x,hfile⟩ := hfound.file
    have hfile' : gs.kind? (dir ++ (dirs ++ [name])) = some (.file bytes x) :=
      hwritten.kind?_source (hfound.slashed ▸ hfound.isSource) (hgrown.kind? hfile)
    have hnames := hfound.partsOf ▸ hfound.names
    rw [← hfound.partsOf] at hfile hfile'
    rw [FileSystem.read_below hstat hnames hfile, FileSystem.read_below hstat' hnames hfile']

/-- A run right after one that succeeded succeeds with the same report, and writes its artifacts
over those that it finds. -/
theorem run_again_writes (hfs : fs.Proper) (hlinks : fs.Linkless)
    (hd : s.discover fs rev = .ok (commit, scan)) (h : (s.run env fs rev).result = .ok report)
    (hapart : s.IgnoreApart fs (s.run env fs rev).files scan.files)
    (hsteady : s.IgnoreSteady fs (s.run env fs rev).files)
    (hrepo : later.isRepository = true) (hcommit : later.commit rev' = .ok commit)
    (hon : ∀ i ≤ scan.files.length, s.interruption? again i = none) :
    ({ s with commits := later }.run again (s.run env fs rev).files rev').result = .ok report ∧
    s.config.nameFor (s.run env fs rev).files s.root = s.config.nameFor fs s.root ∧
    (∀ source ∈ scan.files, (s.run env fs rev).files.read (Path.join s.root source) =
      fs.read (Path.join s.root source)) ∧
    ∃ made base, Grown fs made ∧
      s.layout.Written base (s.entries env fs commit scan.files) made (s.run env fs rev).files ∧
      s.layout.Written base (s.entries again (s.run env fs rev).files commit scan.files)
        (s.run env fs rev).files
        ({ s with commits := later }.run again (s.run env fs rev).files rev').files := by
  have hplain := s.layout.plain_of_linkless hlinks hfs.kind?_root
  have hfits := fits_of_run hfs hd h
  obtain ⟨scan',made,base,hd',hreport,hgrown,hordered,-,hwritten⟩ := written_of_run hfs hplain h
  cases hd.symm.trans hd'
  generalize (s.run env fs rev).files = gs at hapart hsteady hwritten ⊢
  have hgs := hwritten.linkless (hgrown.linkless hlinks)
  obtain ⟨hscan,hname,hread⟩ :=
    discover_again hfs hlinks hd (hwritten.ordered hordered) hgrown hwritten hapart hsteady
  obtain ⟨hstems,hnodup⟩ := stems_apart hfs (discover_ok_iff.mp hd).2.2
  have hagain : { s with commits := later }.discover gs rev' = .ok (report.commit, scan) :=
    discover_ok_iff.mpr ⟨hrepo,hcommit,hscan⟩
  obtain ⟨hfiles,hresult⟩ := run_uninterrupted hagain hon
  have hentries := s.stems_of_entries env fs report.commit scan.files
  obtain ⟨hs,hpersist,hwritten'⟩ := hwritten.again hgs
    ((s.stems_of_entries again gs report.commit scan.files).trans hentries.symm)
    (by rwa [hentries]) (by rwa [hentries]) (by rwa [hentries])
  rw [← artifacts_recordsOf] at hpersist
  -- the commits make no difference to how artifacts are written
  have hpersist : persist gs ({ s with commits := later }.artifacts again gs report.commit
      scan.files ({ s with commits := later }.recordsOf again gs scan.files)) = (hs, none) :=
    hpersist
  rw [hpersist] at hfiles hresult
  refine ⟨?_,hname,hread,made,base,hgrown,hwritten,hfiles ▸ hwritten'⟩
  rw [hresult, hreport, ← report_alike hread]
  rfl

/-- How a second run leaves what a first one has left. The first run found `fs` and left `gs`, the
second left `hs`, and the output directory is at `base`. The artifacts are written again, and where
they hold a time it may be another one. Whatever stands elsewhere stays, files with their bytes and
whether they are executable. -/
structure SameButTimes (base sources : List String) (fs gs hs : FileSystem) : Prop where
  record : ∀ source ∈ sources, ∃ (r : Record) (time : Timestamp), r.path = source ∧
    Layout.Rewritten base fs gs hs source r.toJson.pretty
      { r with generatedAt := time }.toJson.pretty
  structureMap : ∃ (d : StructureDocument) (time : Timestamp),
    Layout.Rewritten base fs gs hs "docshadow" d.toJson.pretty
      { d with generatedAt := time }.toJson.pretty
  manifest : ∃ m : Manifest,
    Layout.Rewritten base fs gs hs "index" m.toJson.pretty m.toJson.pretty
  other : ∀ p, (∀ stem ∈ stems sources, p ≠ Layout.targetAt base stem) → hs.kind? p = gs.kind? p

/-- A run right after one that succeeded succeeds with the same report, and changes nothing but the
times in the records and in the structure map. Artifacts that an executable temporary file has made
executable are so no more. -/
theorem run_again_changes_times (hfs : fs.Proper) (hlinks : fs.Linkless)
    (hd : s.discover fs rev = .ok (commit, scan)) (h : (s.run env fs rev).result = .ok report)
    (hapart : s.IgnoreApart fs (s.run env fs rev).files scan.files)
    (hsteady : s.IgnoreSteady fs (s.run env fs rev).files)
    (hrepo : later.isRepository = true) (hcommit : later.commit rev' = .ok commit)
    (hon : ∀ i ≤ scan.files.length, s.interruption? again i = none) :
    ({ s with commits := later }.run again (s.run env fs rev).files rev').result = .ok report ∧
    ∃ base, s.layout.Stands (s.run env fs rev).files base ∧
      SameButTimes base scan.files fs (s.run env fs rev).files
        ({ s with commits := later }.run again (s.run env fs rev).files rev').files := by
  obtain ⟨hresult,hname,hread,made,base,hgrown,hwritten,hwritten'⟩ :=
    run_again_writes hfs hlinks hd h hapart hsteady hrepo hcommit hon
  refine ⟨hresult,base,hwritten.stands,?_⟩
  generalize (s.run env fs rev).files = gs at hname hread hwritten hwritten' ⊢
  refine ⟨fun source hsource => ?_,?_,?_,fun p hp => ?_⟩
  · obtain ⟨r,hr,rfl⟩ := exists_record s env fs hsource
    obtain ⟨r',hr',hpath⟩ := exists_record s again gs hsource
    have halike := record_alike hr hr' hpath (hread r.path hsource)
    have he' : (r'.path, r'.toJson.pretty) ∈ s.entries again gs commit scan.files :=
      mem_entries_record hr'
    rw [hpath, halike] at he'
    exact ⟨r,r'.generatedAt,rfl,hwritten.rewritten hwritten' hgrown (mem_entries_record hr) he'⟩
  · have he' := s.mem_entries_structure again gs commit scan.files
    rw [document, hname] at he'
    exact ⟨s.document env fs commit scan.files,_,hwritten.rewritten hwritten' hgrown
      (s.mem_entries_structure env fs commit scan.files) he'⟩
  · exact ⟨.ofCommit commit scan.files,hwritten.rewritten hwritten' hgrown
      (s.mem_entries_manifest env fs commit scan.files)
      (s.mem_entries_manifest again gs commit scan.files)⟩
  · have hentries := s.stems_of_entries env fs commit scan.files
    refine hwritten.kind?_again hwritten'
      ((s.stems_of_entries again gs commit scan.files).trans hentries.symm) fun e he => ?_
    exact hp e.1 (hentries ▸ List.mem_map_of_mem he)

/-- Without links it can be read off the texts of paths that the ignore file is no artifact. -/
theorem ignoreApart_of_settled {ignore out : List String} (hfs : fs.Linkless)
    (hgs : gs.Linkless) (hignore : FileSystem.settle [] (partsOf s.ignorePath) = ignore.reverse)
    (hout : FileSystem.settle [] (names s.layout.outputDir) = out.reverse)
    (h : ∀ stem ∈ stems sources, ignore ≠ Layout.targetAt out stem ∧
      ignore ≠ Layout.tempAt out stem) : s.IgnoreApart fs gs sources := by
  intro base hbase stem hstem p n hstat
  obtain rfl : p = ignore := by
    rw [← List.reverse_reverse ignore, ← hignore]
    exact hstat.elim (FileSystem.stat_settle hfs) (FileSystem.stat_settle hgs)
  obtain rfl : base = out := by rw [hbase.settle hgs, hout, List.reverse_reverse]
  exact h stem hstem

/-- A path that never goes up is steady. -/
theorem ignoreSteady_of_down (h : ".." ∉ partsOf s.ignorePath) : s.IgnoreSteady fs gs := by
  intro above below hparts
  exact absurd (by simp [hparts]) h

theorem linkless_of_run (hfs : fs.Proper) (hlinks : fs.Linkless)
    (h : (s.run env fs rev).result = .ok report) : (s.run env fs rev).files.Linkless := by
  have hplain := s.layout.plain_of_linkless hlinks hfs.kind?_root
  obtain ⟨scan,made,base,-,-,hgrown,-,-,hwritten⟩ := written_of_run hfs hplain h
  exact hwritten.linkless (hgrown.linkless hlinks)

end Snapshot

theorem run_again_changes_times_first_run : ∃ (report : Report) (base : List String),
    report.documentedFiles = ["a.py.json"] ∧
    (firstRun.run quietWorld oneSource none).result = .ok report ∧
    (firstRun.run quietWorld (firstRun.run quietWorld oneSource none).files none).result =
      .ok report ∧
    Snapshot.SameButTimes base ["a.py"] oneSource (firstRun.run quietWorld oneSource none).files
      (firstRun.run quietWorld (firstRun.run quietWorld oneSource none).files none).files := by
  obtain ⟨report,hreport,hfiles⟩ := firstRun_reports
  have hfs : oneSource.Proper := ⟨⟨rfl,by decide⟩,by decide⟩
  have hlinks : oneSource.Linkless := FileSystem.linkless_of_root (by decide)
  have hapart := @Snapshot.ignoreApart_of_settled firstRun _ _ ["a.py"] ["i"] ["o"] hlinks
    (Snapshot.linkless_of_run hfs hlinks hreport) (by decide) (by decide) (by decide)
  have hsteady := @Snapshot.ignoreSteady_of_down firstRun oneSource
    (firstRun.run quietWorld oneSource none).files (by decide)
  obtain ⟨hagain,base,-,hsame⟩ := @Snapshot.run_again_changes_times _ _ quietWorld _ _ none _ _ _
    firstRun.commits hfs hlinks firstRun_discover hreport hapart hsteady rfl rfl (fun _ _ => rfl)
  exact ⟨report,base,hfiles,hreport,hagain,hsame⟩

def roundaboutRun : Snapshot :=
  { firstRun with
    config := { Config.standard 1 with outputDir := "out", ignoreFile := "out/../ignore" } }

/-- Whether a project has one source, which its ignore file excludes, and no output directory. -/
structure Roundabout (fs : FileSystem) : Prop where
  proper : fs.Proper
  linkless : fs.Linkless
  stat : ∃ es, fs.stat "/p" = .ok (["p"], .dir es)
  sources : ((fs.filesBelow ["p"] false).map Scan.slashed).filter Path.isSource = ["a.py"]
  free : fs.kind? ["p", "out"] = none
  ignoreFile : fs.kind? ["p", "ignore"] = some (.file (encode "a.py\n") false)

namespace Roundabout

variable {fs : FileSystem}

theorem kind?_dir (h : Roundabout fs) : fs.kind? ["p"] = some .dir := by
  obtain ⟨es,hstat⟩ := h.stat
  exact FileSystem.kind?_of_find? (FileSystem.find?_of_stat h.proper.kind?_root hstat)

private theorem leads : Path.Leads "/p/out/../ignore" ["p", "out", ".."] "ignore" :=
  ⟨["", "p", "out", ".."],by decide,by decide⟩

/-- The ignore file is not found as long as there is no output directory. -/
theorem discover (h : Roundabout fs) :
    roundaboutRun.discover fs none = .ok (firstCommit, ⟨"/p", ["a.py"], 0⟩) := by
  have hmissing : fs.exists? "/p/out/../ignore" = false := by
    rw [FileSystem.exists?, FileSystem.stat, @FileSystem.resolve_missing _ _ _ _ _
      h.linkless (by decide) leads (by decide) (maxLinks, ["p"])
      (by simp [FileSystem.trace, h.kind?_dir, h.free])
      (by simp [FileSystem.trace, h.kind?_dir, h.free])]
    rfl
  obtain ⟨es,hstat⟩ := h.stat
  exact Snapshot.discover_single rfl rfl hmissing hstat h.sources

theorem reports (h : Roundabout fs) : ∃ report,
    (roundaboutRun.run quietWorld fs none).result = .ok report ∧
      report.documentedFiles = ["a.py.json"] := by
  have hclear : Layout.Clear (Snapshot.stems ["a.py"]) := Layout.clear_of_names (by decide)
  have hfits : roundaboutRun.layout.Fits (Snapshot.stems ["a.py"]) := by
    unfold Layout.Fits
    decide
  obtain ⟨es,hstat⟩ := h.stat
  have hresult := @Snapshot.run_ok_of_absent roundaboutRun quietWorld _ _ _ _ _ _ h.proper
    h.linkless hstat (by decide) h.free h.discover (fun _ _ => rfl) hclear hfits
  exact ⟨_,hresult,by simp [Snapshot.report, Manifest.ofCommit, recordPath]⟩

/-- The ignore file is none of the artifacts. -/
theorem ignoreApart {report : Report} (h : Roundabout fs)
    (hrun : (roundaboutRun.run quietWorld fs none).result = .ok report) :
    roundaboutRun.IgnoreApart fs (roundaboutRun.run quietWorld fs none).files ["a.py"] :=
  @Snapshot.ignoreApart_of_settled roundaboutRun _ _ ["a.py"] ["p", "ignore"] ["p", "out"]
    h.linkless (Snapshot.linkless_of_run h.proper h.linkless hrun) (by decide) (by decide)
    (by decide)

private theorem excludes {report : Report} (h : Roundabout fs)
    (hrun : (roundaboutRun.run quietWorld fs none).result = .ok report) :
    (Ignore.Matcher.load (roundaboutRun.run quietWorld fs none).files "/p"
      "out/../ignore").excludes? "a.py" = some true := by
  have hplain := roundaboutRun.layout.plain_of_linkless h.linkless h.proper.kind?_root
  obtain ⟨scan,made,base,-,-,hgrown,-,-,hwritten⟩ := Snapshot.written_of_run h.proper hplain hrun
  generalize (roundaboutRun.run quietWorld fs none).files = gs at hwritten ⊢
  have hgs := hwritten.linkless (hgrown.linkless h.linkless)
  have hbase : base = ["p", "out"] := (hwritten.stands.settle hgs).trans (by decide)
  have hdir : gs.kind? ["p"] = some .dir := hwritten.kept _ (hgrown.kind? h.kind?_dir)
  have hout : gs.kind? ["p", "out"] = some .dir :=
    hbase ▸ hwritten.stands.kind?_base hwritten.plain.root
  have hfile : gs.kind? ["p", "ignore"] = some (.file (encode "a.py\n") false) := by
    rw [hwritten.kind?_outside (by rw [hbase]; decide)]
    exact hgrown.kind? h.ignoreFile
  have hread : gs.read "/p/out/../ignore" = .ok (encode "a.py\n") := by
    have hfind := FileSystem.find?_of_kind?_file hfile
    refine FileSystem.read_eq_ok_iff.mpr ⟨["p", "ignore"],false,?_⟩
    rw [@FileSystem.resolve_name _ _ _ _ _ hgs (by decide) leads (by decide)
      (maxLinks, ["p"]) (by simp [FileSystem.trace, hdir, hout])]
    exact congrArg _ (by rw [List.reverse_singleton, List.singleton_append, hfind])
  have htext : Text.Utf8.decode (encode "a.py\n") = .ok "a.py\n" := by decide +kernel
  have hcut : (Text.lines "a.py\n".toList).map String.ofList = ["a.py"] := by decide
  have hjoin : Path.join "/p" "out/../ignore" = "/p/out/../ignore" := by decide
  have hlines : (Ignore.Matcher.compile "/p" "/p/out/../ignore" ["a.py"]).toOption.bind
      (·.excludes? "a.py") = some true := by decide +kernel
  cases hcompile : Ignore.Matcher.compile "/p" "/p/out/../ignore" ["a.py"] with
  | error e =>
    rw [hcompile] at hlines
    cases hlines
  | ok m =>
    rw [hcompile] at hlines
    rw [← hjoin] at hread
    rw [← hcut, ← hjoin] at hcompile
    rw [Ignore.Matcher.load_of_read hread htext hcompile]
    exact hlines

/-- Sources that are found after a run are not those that it has found. -/
theorem finds_other {report : Report} {scan : Scan} (h : Roundabout fs)
    (hrun : (roundaboutRun.run quietWorld fs none).result = .ok report)
    (hscan : Scan.run (roundaboutRun.run quietWorld fs none).files "/p"
      (.load (roundaboutRun.run quietWorld fs none).files "/p" "out/../ignore") false = .ok scan) :
    scan.files.map recordPath ≠ ["a.py.json"] := by
  intro hsame
  have hmem : recordPath "a.py" ∈ scan.files.map recordPath := by
    rw [hsame]
    decide
  obtain ⟨source,hsource,hpath⟩ := List.mem_map.mp hmem
  rw [Path.recordPath_inj hpath] at hsource
  exact Scan.not_mem_of_excluded hscan (h.excludes hrun) hsource

end Roundabout

private def roundabout : FileSystem :=
  ⟨.dir [("p", .dir [("a.py", .file [0xFF] false), ("ignore", .file (encode "a.py\n") false)])]⟩

private theorem isRoundabout : Roundabout roundabout :=
  ⟨⟨⟨rfl,by decide⟩,by decide⟩,FileSystem.linkless_of_root (by decide),
    ⟨_,@FileSystem.stat_of_reaches roundabout "/p" "p" [] _ (by decide) (by decide) rfl⟩,
    by decide,by decide,rfl⟩

private def stale : FileSystem :=
  ⟨.dir [("o", .dir [(".index.json.tmp", .file [] true)]),
    ("p", .dir [("a.py", .file [0xFF] false)])]⟩

private theorem stale_discover :
    firstRun.discover stale none = .ok (firstCommit, ⟨"/p", ["a.py"], 0⟩) :=
  firstRun_discovers (by decide) (by decide) rfl (by decide)

private theorem stale_room : Layout.Room stale ["o"] ["o"] [] (Snapshot.stems ["a.py"]) := by
  have hnames : ∀ stem ∈ Snapshot.stems ["a.py"], isName stem = true := by decide
  have hout : stale.kind? ["o"] = some .dir := by decide
  refine ⟨FileSystem.linkless_of_root (by decide),by decide,by simp [FileSystem.trace, hout],?_,
    by decide,by decide⟩
  intro stem hstem dirs name hnamed zs hzs
  rw [hnamed.dirs_eq_nil (hnames stem hstem)] at hzs
  rw [List.prefix_nil.mp hzs]
  exact .inr hout

private theorem stale_reports : ∃ report,
    (firstRun.run quietWorld stale none).result = .ok report := by
  have hclear : Layout.Clear (Snapshot.stems ["a.py"]) := Layout.clear_of_names (by decide)
  have hfits : firstRun.layout.Fits (Snapshot.stems ["a.py"]) := by
    unfold Layout.Fits
    decide
  exact ⟨_,Snapshot.run_ok_of_room stale_discover (fun _ _ => rfl) stale_room hclear hfits
    (by decide) (by simp)⟩

/-- A second run may find other sources though the ignore file is none of the artifacts. And it
leaves a manifest that is not executable where the first one has left one that is. -/
theorem run_again_not_identical :
    (∃ report : Report, report.documentedFiles = ["a.py.json"] ∧ roundabout.Proper ∧
      roundabout.Linkless ∧ (roundaboutRun.run quietWorld roundabout none).result = .ok report ∧
      roundaboutRun.IgnoreApart roundabout (roundaboutRun.run quietWorld roundabout none).files
        ["a.py"] ∧
      ∀ later : Report, (roundaboutRun.run quietWorld
        (roundaboutRun.run quietWorld roundabout none).files none).result = .ok later →
        later.documentedFiles ≠ report.documentedFiles) ∧
    ∃ report : Report, stale.Proper ∧ stale.Linkless ∧
      (firstRun.run quietWorld stale none).result = .ok report ∧
      firstRun.IgnoreApart stale (firstRun.run quietWorld stale none).files ["a.py"] ∧
      (firstRun.run quietWorld (firstRun.run quietWorld stale none).files none).result =
        .ok report ∧
      (firstRun.run quietWorld stale none).files.executableAt ["o", "index.json"] = true ∧
      (firstRun.run quietWorld (firstRun.run quietWorld stale none).files none).files.executableAt
        ["o", "index.json"] = false := by
  constructor
  · obtain ⟨report,hreport,hfiles⟩ := isRoundabout.reports
    refine ⟨report,hfiles,isRoundabout.proper,isRoundabout.linkless,hreport,
      isRoundabout.ignoreApart hreport,?_⟩
    intro later hlater hsame
    obtain ⟨scan,hd,hdocumented,-⟩ := Snapshot.persist_of_run hlater
    have hlisted : later.documentedFiles = scan.files.map recordPath := by
      rw [hdocumented]
      rfl
    refine isRoundabout.finds_other hreport (Snapshot.discover_ok_iff.mp hd).2.2 ?_
    rw [← hlisted, hsame, hfiles]
  · obtain ⟨report,hreport⟩ := stale_reports
    have hfs : stale.Proper := ⟨⟨rfl,by decide⟩,by decide⟩
    have hlinks : stale.Linkless := FileSystem.linkless_of_root (by decide)
    have hgs := Snapshot.linkless_of_run hfs hlinks hreport
    have hapart := @Snapshot.ignoreApart_of_settled firstRun _ _ ["a.py"] ["i"] ["o"] hlinks hgs
      (by decide) (by decide) (by decide)
    obtain ⟨hagain,-,-,made,base,hgrown,hwritten,hwritten'⟩ := @Snapshot.run_again_writes _ _
      quietWorld _ _ none _ _ _ firstRun.commits hfs hlinks stale_discover hreport hapart
      (Snapshot.ignoreSteady_of_down (by decide)) rfl rfl (fun _ _ => rfl)
    obtain ⟨hfirst,hsecond⟩ := hwritten.rewritten hwritten' hgrown
      (Snapshot.mem_entries_manifest ..) (Snapshot.mem_entries_manifest ..)
    have hbase : base = ["o"] := (hwritten.stands.settle hgs).trans (by decide)
    have htarget : Layout.targetAt base "index" = ["o", "index.json"] := by rw [hbase]; decide
    have hflag : stale.executableAt (Layout.tempAt base "index") = true := by rw [hbase]; decide
    rw [htarget] at hfirst hsecond
    rw [hflag] at hfirst
    exact ⟨report,hfs,hlinks,hreport,hapart,hagain,FileSystem.executableAt_of_file hfirst,
      FileSystem.executableAt_of_file hsecond⟩

end DocSnapshot
