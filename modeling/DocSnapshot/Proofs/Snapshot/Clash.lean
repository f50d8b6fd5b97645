import DocSnapshot.Proofs.FileSystem.Success
import DocSnapshot.Proofs.Snapshot.Agreement

/-! When the artifacts of a snapshot can be written. Records mirror the paths of their sources, in
one directory with the structure map and the manifest, so a directory of the project may be named
like an artifact. The layout of a project makes a run fail exactly when one is. -/
namespace DocSnapshot
open FileSystem (partsOf maxLinks refusal? Linkless Made)
open DocSnapshot.Path (names isName recordPath tempName)

namespace Layout

/-- Whether the paths of artifacts and those of their temporary files can be asked for. -/
def Fits (l : Layout) (stems : List String) : Prop :=
  ∀ stem ∈ stems, refusal? (l.recordFile stem) = none ∧
    refusal? (Artifact.tempPath (l.recordFile stem)) = none

/-- Whether artifacts can be named after stems such that none stands where another needs a
directory. -/
structure Clear (stems : List String) : Prop where
  stem : ∀ stem ∈ stems, ∃ dirs name, Path.Stem stem dirs name
  apart : ∀ stem ∈ stems, ∀ other ∈ stems, ∀ dirs name, Path.Stem other dirs name →
    ¬partsOf (recordPath stem) <+: dirs

/-- Whether a file system has room for artifacts. The output directory is `lead` below the
directory `top`, which is there, and `above` is the way to that one. -/
structure Room (fs : FileSystem) (above top lead stems : List String) : Prop where
  linkless : fs.Linkless
  root : fs.kind? [] = some .dir
  entered : fs.trace false maxLinks [] above = some (maxLinks, top.reverse)
  way : ∀ stem ∈ stems, ∀ dirs name, Path.Stem stem dirs name → ∀ zs, zs <+: lead ++ dirs →
    fs.kind? (top ++ zs) = none ∨ fs.kind? (top ++ zs) = some .dir
  target : ∀ stem ∈ stems, fs.kind? (targetAt (top ++ lead) stem) ≠ some .dir
  temp : ∀ stem ∈ stems, fs.kind? (tempAt (top ++ lead) stem) ≠ some .dir

variable {l : Layout} {fs gs made : FileSystem} {above top lead stems dirs : List String}
  {stem name : String}

/-- Artifacts that all stand right in the output directory are clear of one another. -/
theorem clear_of_names (h : ∀ stem ∈ stems, isName stem = true) : Clear stems := by
  refine ⟨fun stem hstem => ⟨[],stem,Path.stem_of_name (h stem hstem)⟩,?_⟩
  intro stem _ other hother dirs name hnamed hinit
  rw [hnamed.dirs_eq_nil (h other hother), List.prefix_nil] at hinit
  exact Path.partsOf_ne_nil _ hinit

private theorem saved_cases {content : List UInt8} {x : Bool}
    (hmade : Made fs made top (lead ++ dirs))
    (hkind : ∀ p, gs.kind? p = if p = targetAt (top ++ lead) stem then some (.file content x)
      else if p = tempAt (top ++ lead) stem then none else made.kind? p) (p : List String) :
    p = targetAt (top ++ lead) stem ∧ gs.kind? p = some (.file content x) ∨
      p = tempAt (top ++ lead) stem ∧ gs.kind? p = none ∨
      p <+: top ++ lead ++ dirs ∧ gs.kind? p = some .dir ∨ gs.kind? p = fs.kind? p := by
  rw [hkind, hmade, List.append_assoc]
  split
  · next hp => exact .inl ⟨hp,rfl⟩
  · split
    · next hp => exact .inr (.inl ⟨hp,rfl⟩)
    · split
      · next hp => exact .inr (.inr (.inl ⟨hp.2,rfl⟩))
      · exact .inr (.inr (.inr rfl))

private theorem Room.step {content : List UInt8} {x : Bool} (h : Room fs above top lead stems)
    (hclear : Clear stems) (hmem : stem ∈ stems) (hstem : Path.Stem stem dirs name)
    (hmade : Made fs made top (lead ++ dirs))
    (hkind : ∀ p, gs.kind? p = if p = targetAt (top ++ lead) stem then some (.file content x)
      else if p = tempAt (top ++ lead) stem then none else made.kind? p) :
    Room gs above top lead stems := by
  have hcases := saved_cases hmade hkind
  have hdir : ∀ p, fs.kind? p = some .dir → gs.kind? p = some .dir := by
    intro p hp
    rcases hcases p with ⟨rfl,-⟩ | ⟨rfl,-⟩ | ⟨-,hk⟩ | hsame
    · exact (h.target stem hmem hp).elim
    · exact (h.temp stem hmem hp).elim
    · exact hk
    · rw [hsame, hp]
  refine ⟨fun p target => ?_,hdir _ h.root,?_,?_,?_,?_⟩
  · rcases hcases p with ⟨-,hk⟩ | ⟨-,hk⟩ | ⟨-,hk⟩ | hk
    · simp [hk]
    · simp [hk]
    · simp [hk]
    · rw [hk]
      exact h.linkless p target
  · exact FileSystem.trace_of_kept hdir (fun p target hk => (h.linkless p target hk).elim) h.entered
  · intro other hother dirs' name' hstem' zs hzs
    rcases hcases (top ++ zs) with ⟨heq,-⟩ | ⟨-,hk⟩ | ⟨-,hk⟩ | hk
    · rw [targetAt, List.append_assoc, List.append_cancel_left_eq] at heq
      rw [heq, List.prefix_append_right_inj] at hzs
      exact (hclear.apart stem hmem other hother dirs' name' hstem' hzs).elim
    · exact .inl hk
    · exact .inr hk
    · rw [hk]
      exact h.way other hother dirs' name' hstem' zs hzs
  · intro other hother
    rcases hcases (targetAt (top ++ lead) other) with ⟨-,hk⟩ | ⟨-,hk⟩ | ⟨hway,-⟩ | hk
    · simp [hk]
    · simp [hk]
    · rw [targetAt, List.prefix_append_right_inj] at hway
      exact (hclear.apart other hother stem hmem dirs name hstem hway).elim
    · rw [hk]
      exact h.target other hother
  · intro other hother
    rcases hcases (tempAt (top ++ lead) other) with ⟨-,hk⟩ | ⟨-,hk⟩ | ⟨hway,-⟩ | hk
    · simp [hk]
    · simp [hk]
    · obtain ⟨dirs',name',hstem'⟩ := hclear.stem other hother
      rw [tempAt_eq hstem', List.prefix_append_right_inj] at hway
      exact (tempAt_ne_of_shown hstem' hstem hway (tempAt_eq hstem' (top ++ lead))).elim
    · rw [hk]
      exact h.temp other hother

private theorem Room.save (h : Room fs above top lead stems) (hclear : Clear stems)
    (hfits : l.Fits stems) (hout : names l.outputDir = above ++ lead)
    (hlead : ∀ part ∈ lead, isName part = true) {e : String × String} (hmem : e.1 ∈ stems) :
    ∃ gs, (l.artifact e).save fs = (gs, none) ∧ Room gs above top lead stems := by
  obtain ⟨dirs,name,hstem⟩ := hclear.stem e.1 hmem
  have hwithin := (l.within_recordFile hstem.slashed hstem.names).1
  have hleads := hwithin.leads
  rw [hout, List.append_assoc] at hleads
  have hway : ∀ part ∈ lead ++ dirs, isName part = true :=
    List.forall_mem_append.mpr ⟨hlead,hwithin.above⟩
  have hassoc : ∀ last, top ++ (lead ++ dirs) ++ [last] = top ++ lead ++ (dirs ++ [last]) := by simp
  obtain ⟨made,gs,hsave,hmade,hkind⟩ := @FileSystem.save_succeeds fs (recordPath name) h.linkless
    h.root (l.artifact e) above top (lead ++ dirs) h.entered hway (h.way e.1 hmem dirs name hstem)
    hleads hwithin.name (hfits e.1 hmem).1 (hfits e.1 hmem).2
    (by rw [hassoc, ← targetAt_eq hstem]; exact h.target e.1 hmem)
    (by rw [hassoc, ← tempAt_eq hstem]; exact h.temp e.1 hmem)
  simp only [hassoc, ← targetAt_eq hstem, ← tempAt_eq hstem] at hkind
  exact ⟨gs,hsave,h.step hclear hmem hstem hmade hkind⟩

/-- All artifacts can be written where there is room for them. -/
theorem Room.persist (h : Room fs above top lead stems) (hclear : Clear stems)
    (hfits : l.Fits stems) (hout : names l.outputDir = above ++ lead)
    (hlead : ∀ part ∈ lead, isName part = true) {files : List (String × String)}
    (hfiles : ∀ e ∈ files, e.1 ∈ stems) :
    (Snapshot.persist fs (files.map l.artifact)).2 = none := by
  induction files generalizing fs with
  | nil => rfl
  | cons e files ih =>
    obtain ⟨mid,hsave,hmid⟩ := h.save hclear hfits hout hlead (hfiles e List.mem_cons_self)
    rw [List.map_cons, Snapshot.persist, hsave]
    exact ih hmid fun e' he' => hfiles e' (List.mem_cons_of_mem e he')

/-- Without links anywhere there are none below the output directory. -/
theorem plain_of_linkless (l : Layout) (hfs : fs.Linkless) (hroot : fs.kind? [] = some .dir) :
    l.Plain fs := by
  refine ⟨hroot,fun path target => ?_⟩
  rw [kind?]
  cases fs.place l.outputDir with
  | none => simp
  | some dir => exact hfs _ target

/-- Artifacts that are all there are clear of one another. -/
theorem Written.clear {base : List String} {files : List (String × String)}
    (h : l.Written base files fs gs)
    (hstems : ∀ stem ∈ files.map (·.1), ∃ dirs name, Path.Stem stem dirs name) :
    Clear (files.map (·.1)) := by
  refine ⟨hstems,fun stem hstem other hother dirs name hnamed hinit => ?_⟩
  obtain ⟨e,he,rfl⟩ := List.mem_map.mp hstem
  obtain ⟨e',he',rfl⟩ := List.mem_map.mp hother
  have hfile := h.file e he
  have hbelow := h.file e' he'
  obtain ⟨rest,rfl⟩ := hinit
  rw [targetAt_eq hnamed, List.append_assoc, ← List.append_assoc] at hbelow
  have hdir := @FileSystem.kind?_above gs _ (rest ++ [recordPath name]) (by simp)
    (hbelow ▸ Option.some_ne_none _)
  rw [targetAt, hdir] at hfile
  cases hfile

end Layout

namespace Snapshot

variable {s : Snapshot} {env : Environment} {fs : FileSystem} {rev : Option String}
  {commit : Commit} {scan : Scan} {report : Report}

/-- Whether an artifact of a snapshot is named like a source or a directory above one. -/
def Clashes (sources : List String) : Prop :=
  ∃ stem ∈ stems sources, ∃ source ∈ sources,
    Path.segments (recordPath stem) <+: Path.segments source

private theorem segments_recordPath {stem name : String} {dirs : List String}
    (h : Path.Stem stem dirs name) :
    Path.segments (recordPath stem) = partsOf (recordPath stem) := by
  have hparts : partsOf (recordPath stem) = dirs ++ [recordPath name] := by
    rw [h.slashed, Path.partsOf_recordPath h.names]
  refine Path.segments_of_names fun part hpart => ?_
  rw [hparts] at hpart
  rcases List.mem_append.mp hpart with hdir | hlast
  · exact h.names part (List.mem_append_left _ hdir)
  · rw [List.mem_singleton.mp hlast]
    exact Path.isName_recordName (h.names name (by simp))

/-- The artifacts of a scan are clear of one another when none is named like a directory above a
source. -/
theorem clear_iff_not_clashes {m : Ignore.Matcher} (hfs : fs.Proper)
    (h : Scan.run fs s.root m false = .ok scan) :
    Layout.Clear (stems scan.files) ↔ ¬Clashes scan.files := by
  obtain ⟨dir,es,hstat,-⟩ := Scan.stat_of_run h
  have hstems := (stems_apart hfs h).1
  constructor
  · rintro hclear ⟨stem,hstem,source,hsource,hinit⟩
    obtain ⟨dirs,name,hfound⟩ := Scan.found_of_run hfs hstat h hsource
    obtain ⟨dirs',name',hnamed⟩ := hstems stem hstem
    rw [segments_recordPath hnamed, hfound.segments, List.prefix_concat_iff] at hinit
    rcases hinit with heq | hinit
    · rw [← hfound.partsOf] at heq
      have hsource := hfound.isSource
      rw [← Path.partsOf_inj heq, Path.isSource_recordPath] at hsource
      cases hsource
    · exact hclear.apart stem hstem source (List.mem_append_left _ hsource) dirs name hfound.stem
        hinit
  · refine fun hno => ⟨hstems,fun stem hstem other hother dirs name hnamed hinit => ?_⟩
    obtain ⟨dirs',name',hstemNamed⟩ := hstems stem hstem
    rcases List.mem_append.mp hother with hsource | hfixed
    · refine hno ⟨stem,hstem,other,hsource,?_⟩
      rw [segments_recordPath hstemNamed, Path.segments_of_names (hnamed.partsOf ▸ hnamed.names),
        hnamed.partsOf]
      exact hinit.trans (List.prefix_append ..)
    · have hname : isName other = true := by
        simp only [List.mem_cons, List.not_mem_nil, or_false] at hfixed
        rcases hfixed with rfl | rfl <;> decide
      rw [hnamed.dirs_eq_nil hname, List.prefix_nil] at hinit
      exact Path.partsOf_ne_nil _ hinit

private theorem room_of_absent {dir : List String} {es : List (String × Node)} {out : String}
    (hlinks : fs.Linkless) (hroot : fs.kind? [] = some .dir)
    (hstat : fs.stat s.root = .ok (dir, .dir es)) (habsent : fs.kind? (dir ++ [out]) = none)
    {stems : List String} (hstems : ∀ stem ∈ stems, ∃ dirs name, Path.Stem stem dirs name) :
    Layout.Room fs (names s.root) dir [out] stems := by
  have hbelow : ∀ path, fs.kind? (dir ++ [out] ++ path) = none := by
    intro path
    cases path with
    | nil => rwa [List.append_nil]
    | cons name rest => exact FileSystem.kind?_below (by simp [habsent]) (by simp)
  refine ⟨hlinks,hroot,FileSystem.trace_of_stat hlinks hstat,?_,?_,?_⟩
  · intro stem _ dirs name _ zs hzs
    rcases List.prefix_cons_iff.mp hzs with rfl | ⟨rest,rfl,-⟩
    · have hdir := FileSystem.kind?_of_find? (FileSystem.find?_of_stat hroot hstat)
      exact .inr (by rwa [List.append_nil])
    · have hnone := hbelow rest
      rw [List.append_assoc] at hnone
      exact .inl hnone
  · intro stem _
    rw [Layout.targetAt, hbelow]
    simp
  · intro stem hstem
    obtain ⟨dirs,name,hnamed⟩ := hstems stem hstem
    rw [Layout.tempAt_eq hnamed, hbelow]
    simp

/-- A run that nothing interrupts succeeds when its artifacts are clear of one another and there is
room for them. -/
theorem run_ok_of_room {above top lead : List String}
    (hd : s.discover fs rev = .ok (commit, scan))
    (hon : ∀ i ≤ scan.files.length, s.interruption? env i = none)
    (hroom : Layout.Room fs above top lead (stems scan.files))
    (hclear : Layout.Clear (stems scan.files)) (hfits : s.layout.Fits (stems scan.files))
    (hout : names s.layout.outputDir = above ++ lead)
    (hlead : ∀ part ∈ lead, isName part = true) :
    (s.run env fs rev).result = .ok (s.report commit scan (s.recordsOf env fs scan.files)) := by
  have hfiles : ∀ e ∈ s.entries env fs commit scan.files, e.1 ∈ stems scan.files := by
    intro e he
    rw [← s.stems_of_entries env fs commit scan.files]
    exact List.mem_map_of_mem he
  have hpersist := hroom.persist hclear hfits hout hlead hfiles
  rw [← artifacts_recordsOf] at hpersist
  rw [(run_uninterrupted hd hon).2, hpersist]

/-- It succeeds in an output directory that is still to be made. -/
theorem run_ok_of_absent {dir : List String} {es : List (String × Node)} (hfs : fs.Proper)
    (hlinks : fs.Linkless) (hstat : fs.stat s.root = .ok (dir, .dir es))
    (hout : isName s.config.outputDir = true)
    (habsent : fs.kind? (dir ++ [s.config.outputDir]) = none)
    (hd : s.discover fs rev = .ok (commit, scan))
    (hon : ∀ i ≤ scan.files.length, s.interruption? env i = none)
    (hclear : Layout.Clear (stems scan.files)) (hfits : s.layout.Fits (stems scan.files)) :
    (s.run env fs rev).result = .ok (s.report commit scan (s.recordsOf env fs scan.files)) := by
  have hnames : names s.layout.outputDir = names s.root ++ [s.config.outputDir] := by
    have hstem := Path.stem_of_name hout
    have hleads := @Path.leads_join s.root s.config.outputDir s.config.outputDir []
      ⟨[],hstem.partsOf,rfl⟩ (Path.isAbsolute_of_names hstem.partsOf hstem.names)
    rw [layout, Layout.ofConfig, Config.outputPath, Path.names_leads hleads hout, List.append_nil]
  have hroom := room_of_absent hlinks hfs.kind?_root hstat habsent hclear.stem
  exact run_ok_of_room hd hon hroom hclear hfits hnames (by simpa using hout)

/-- A run over a project of plain files and directories that has no output directory yet fails
exactly when an artifact is named like a directory above a source. -/
theorem run_ok_iff_not_clashes {dir : List String} {es : List (String × Node)} (hfs : fs.Proper)
    (hlinks : fs.Linkless) (hroot : fs.stat s.root = .ok (dir, .dir es))
    (hconfig : s.config.outputDir = ".docshadow")
    (habsent : fs.kind? (dir ++ [".docshadow"]) = none) (hrepo : s.commits.isRepository = true)
    (hcommit : s.commits.commit rev = .ok commit) (hcancel : ∀ i, env.cancelled i = false)
    (hdeadline : s.deadline = none) :
    ∃ scan, s.discover fs rev = .ok (commit, scan) ∧ (s.layout.Fits (stems scan.files) →
      ((∃ report, (s.run env fs rev).result = .ok report) ↔ ¬Clashes scan.files)) := by
  obtain ⟨scan,hscan⟩ : ∃ scan,
      Scan.run fs s.root (.load fs s.root s.config.ignoreFile) false = .ok scan := by
    rw [Scan.run, Scan.walk, hroot]
    exact ⟨_,rfl⟩
  have hd : s.discover fs rev = .ok (commit, scan) := discover_ok_iff.mpr ⟨hrepo,hcommit,hscan⟩
  refine ⟨scan,hd,fun hfits => ?_⟩
  rw [← clear_iff_not_clashes hfs hscan]
  constructor
  · rintro ⟨report,hreport⟩
    have hplain := s.layout.plain_of_linkless hlinks hfs.kind?_root
    obtain ⟨scan',made,base,hd',-,-,-,-,hwritten⟩ := written_of_run hfs hplain hreport
    cases hd.symm.trans hd'
    have hentries := s.stems_of_entries env fs report.commit scan.files
    have hclear := hwritten.clear (by rw [hentries]; exact (stems_apart hfs hscan).1)
    rwa [hentries] at hclear
  · intro hclear
    have hon : ∀ i ≤ scan.files.length, s.interruption? env i = none := by
      intro i _
      simp [interruption?, hcancel, hdeadline]
    have hname : isName s.config.outputDir = true := by rw [hconfig]; decide
    rw [← hconfig] at habsent
    exact ⟨_,run_ok_of_absent hfs hlinks hroot hname habsent hd hon hclear hfits⟩

end Snapshot

private def mirrored : FileSystem :=
  ⟨.dir [("p", .dir [("index.json", .dir [("a.py", .file [0xFF] false)])])]⟩

private def mirroredRun : Snapshot :=
  { firstRun with config := Config.standard 1 }

theorem run_ok_iff_not_clashes_mirrored :
    mirroredRun.discover mirrored none = .ok (firstCommit, ⟨"/p", ["index.json/a.py"], 0⟩) ∧
    Snapshot.Clashes ["index.json/a.py"] ∧
    ¬∃ report, (mirroredRun.run quietWorld mirrored none).result = .ok report := by
  have hdir : mirrored.kind? ["p"] = some .dir := by decide
  have hmissing : mirrored.exists? "/p/.docignore" = false :=
    @FileSystem.not_exists?_of_reaches _ _ ".docignore" ["p"] (by decide) hdir (by decide)
  have hstat : mirrored.stat mirroredRun.root =
      .ok (["p"], .dir [("index.json", .dir [("a.py", .file [0xFF] false)])]) :=
    @FileSystem.stat_of_reaches mirrored "/p" "p" [] _ (by decide) (by decide) rfl
  have hfirst : mirroredRun.discover mirrored none =
      .ok (firstCommit, ⟨"/p", ["index.json/a.py"], 0⟩) :=
    Snapshot.discover_single rfl rfl hmissing hstat (by decide)
  have hclash : Snapshot.Clashes ["index.json/a.py"] :=
    ⟨"index",by decide,"index.json/a.py",by decide,by decide⟩
  obtain ⟨scan,hd,hiff⟩ := @Snapshot.run_ok_iff_not_clashes mirroredRun quietWorld mirrored none
    firstCommit _ _ ⟨⟨rfl,by decide⟩,by decide⟩ (FileSystem.linkless_of_root (by decide)) hstat rfl
    (by decide) rfl rfl (fun _ => rfl) rfl
  cases hfirst.symm.trans hd
  have hfits : mirroredRun.layout.Fits (Snapshot.stems ["index.json/a.py"]) := by
    unfold Layout.Fits
    decide
  exact ⟨hd,hclash,fun hok => (hiff hfits).mp hok hclash⟩

end DocSnapshot
