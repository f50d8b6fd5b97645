import DocSnapshot.Proofs.FileSystem.Reach
import DocSnapshot.Proofs.Setup.Steps

/-! Setting up a project. A second time changes nothing, a time that fails for want of the hooks
directory makes no difference to later ones, and no file that was there is damaged. -/
namespace DocSnapshot.Setup
open FileSystem (partsOf destination Linkless Kept Grown)
open DocSnapshot.Path (names)

variable {processors : Nat} {fs gs hs : FileSystem} {root : String} {config : Config}
  {commits : CommitSource}

/-- Whether a place is that of the hook which a configuration asks for. -/
def HookAt (config : Config) (commits : CommitSource) (p : List String) : Prop :=
  config.postCommitHook = true ∧ ∃ dir, commits.hooksDir = .ok dir ∧ p = Hook.place dir

/-- Whether a place is on the way to the hooks of a configuration. -/
def OnHooksWay (config : Config) (commits : CommitSource) (p : List String) : Prop :=
  config.postCommitHook = true ∧
    ∃ dir parts, commits.hooksDir = .ok dir ∧ parts <+: names dir ∧ p = destination parts

private theorem not_hookAt_configPlace : ¬HookAt config commits (configPlace root) := by
  rintro ⟨-,dir,-,hplace⟩
  rw [configPlace_eq, Hook.place_eq] at hplace
  have hname := List.append_inj_right' hplace rfl
  exact absurd hname (by decide)

private theorem ensureHook_cases (config : Config) (commits : CommitSource) :
    (config.postCommitHook = true ∧ ∃ dir, commits.hooksDir = .ok dir ∧
      ∀ fs, ensureHook fs config commits = Hook.install fs dir) ∨
    (∃ e, commits.hooksDir = .error e ∧ ∀ fs, ensureHook fs config commits = (fs, .error e)) ∨
    (config.postCommitHook = false ∧
      ∀ fs, ensureHook fs config commits = (fs, .ok .disabled)) := by
  cases hhook : config.postCommitHook with
  | false => exact .inr (.inr ⟨rfl,fun fs => by simp only [ensureHook, hhook]; rfl⟩)
  | true =>
    cases hdir : commits.hooksDir with
    | error e => exact .inr (.inl ⟨e,rfl,fun fs => by simp only [ensureHook, hhook, hdir, if_true]⟩)
    | ok dir =>
      exact .inl ⟨rfl,dir,rfl,fun fs => by simp only [ensureHook, hhook, hdir, if_true]⟩

private theorem ensureHook_linkless (hfs : fs.Linkless) (hroot : fs.kind? [] = some .dir) :
    (ensureHook fs config commits).1.Linkless := by
  rcases ensureHook_cases config commits with ⟨-,dir,-,heq⟩ | ⟨e,-,heq⟩ | ⟨-,heq⟩
  · rw [heq]
    exact (Hook.installs_install hfs hroot dir).linkless hfs hroot
  · rwa [heq]
  · rwa [heq]

private theorem ensureHook_kept (hfs : fs.Linkless) (hroot : fs.kind? [] = some .dir) :
    Kept fs (ensureHook fs config commits).1 (HookAt config commits) := by
  rcases ensureHook_cases config commits with ⟨hhook,dir,hdir,heq⟩ | ⟨e,-,heq⟩ | ⟨-,heq⟩
  · rw [heq]
    refine ((Hook.installs_install hfs hroot dir).kept hroot).mono ?_
    rintro _ rfl
    exact ⟨hhook,dir,hdir,rfl⟩
  · rw [heq]
    exact FileSystem.kept_refl ..
  · rw [heq]
    exact FileSystem.kept_refl ..

private theorem ensureHook_new (hfs : fs.Linkless) (hroot : fs.kind? [] = some .dir)
    {p : List String} (hfree : fs.kind? p = none)
    (hnew : (ensureHook fs config commits).1.kind? p ≠ none) : HookAt config commits p ∨
      (ensureHook fs config commits).1.kind? p = some .dir ∧ OnHooksWay config commits p := by
  rcases ensureHook_cases config commits with ⟨hhook,dir,hdir,heq⟩ | ⟨e,-,heq⟩ | ⟨-,heq⟩
  · rw [heq] at hnew ⊢
    rcases (Hook.installs_install hfs hroot dir).new hfs hroot hfree hnew with
      hp | ⟨hk,parts,hparts,hp⟩
    · exact .inl ⟨hhook,dir,hdir,hp⟩
    · exact .inr ⟨hk,hhook,dir,parts,hdir,hparts,hp⟩
  · rw [heq] at hnew
    exact (hnew hfree).elim
  · rw [heq] at hnew
    exact (hnew hfree).elim

/-- What is said about a hook that nothing is left to do about. -/
def Settled (config : Config) (commits : CommitSource) (status : Hook.Status) : Prop :=
  (config.postCommitHook = true ∧ ∃ dir, commits.hooksDir = .ok dir ∧
    status = .alreadyInstalled (Path.join dir Hook.fileName)) ∨
  (config.postCommitHook = false ∧ status = .disabled)

private theorem ensureHook_again (hfs : fs.Linkless) (hroot : fs.kind? [] = some .dir)
    {status : Hook.Status} (h : (ensureHook fs config commits).2 = .ok status) :
    ∃ status', Settled config commits status' ∧ ensureHook (ensureHook fs config commits).1 config
      commits = ((ensureHook fs config commits).1, .ok status') := by
  rcases ensureHook_cases config commits with ⟨hhook,dir,hdir,heq⟩ | ⟨e,-,heq⟩ | ⟨hhook,heq⟩
  · have hinstalls := Hook.installs_install hfs hroot dir
    rw [heq fs] at h ⊢
    rw [h] at hinstalls
    exact ⟨_,.inl ⟨hhook,dir,hdir,rfl⟩,(heq _).trans (hinstalls.again hfs hroot)⟩
  · rw [heq] at h
    cases h
  · rw [heq fs]
    exact ⟨_,.inr ⟨hhook,rfl⟩,heq fs⟩

private inductive Ran (processors : Nat) (fs : FileSystem) (root : String)
    (commits : CommitSource) : FileSystem × Except Error Report → Prop where
  | refused (e : Error) : Ran processors fs root commits (fs, .error e)
  | unfinished {gs : FileSystem} {config : Config} {created : Bool} {e : Error}
      (configured : ensureConfig processors fs root = .ok (gs, config, created))
      (ignored : ensureIgnoreFile gs root config.ignoreFile = .error e) :
      Ran processors fs root commits (gs, .error e)
  | hooked {gs hs : FileSystem} {config : Config} {created : Bool} {source : IgnoreFile}
      (repository : commits.isRepository = true)
      (configured : ensureConfig processors fs root = .ok (gs, config, created))
      (ignored : ensureIgnoreFile gs root config.ignoreFile = .ok (hs, source)) :
      Ran processors fs root commits ((ensureHook hs config commits).1,
        (ensureHook hs config commits).2.map fun status => ⟨created, source, status⟩)

private theorem ran_run (processors : Nat) (fs : FileSystem) (root : String)
    (commits : CommitSource) : Ran processors fs root commits (run processors fs root commits) := by
  rw [run]
  split
  · exact .refused _
  · next hrepository =>
    split
    · exact .refused _
    · next configured =>
      split
      · next ignored => exact .unfinished configured ignored
      · next ignored => exact .hooked (by simpa using hrepository) configured ignored

private theorem run_of_steps {created : Bool} {source : IgnoreFile}
    (hrepository : commits.isRepository = true)
    (hconfig : ensureConfig processors fs root = .ok (gs, config, created))
    (hignore : ensureIgnoreFile gs root config.ignoreFile = .ok (hs, source)) :
    run processors fs root commits = ((ensureHook hs config commits).1,
      (ensureHook hs config commits).2.map fun status => ⟨created, source, status⟩) := by
  simp only [run, hrepository, hconfig, hignore]
  rfl

/-- What holds once there are a configuration and an ignore file: they were there or are new, and
all else is as it was. -/
structure Prepared (processors : Nat) (fs gs : FileSystem) (root : String) (config : Config) :
    Prop where
  linkless : gs.Linkless
  rootDir : gs.kind? [] = some .dir
  kept : Kept fs gs fun _ => False
  new : ∀ p, fs.kind? p = none → gs.kind? p ≠ none →
    p = configPlace root ∨ p = ignorePlace root config.ignoreFile
  configured : Configured processors gs root config
  ignoreFile : gs.exists? (Path.join root config.ignoreFile) = true

private theorem prepared_of_steps (hfs : fs.Linkless) (hroot : fs.kind? [] = some .dir)
    (hprocessors : processors < Nat.pow 2 64) {created : Bool} {source : IgnoreFile}
    (hconfig : ensureConfig processors fs root = .ok (gs, config, created))
    (hignore : ensureIgnoreFile gs root config.ignoreFile = .ok (hs, source)) :
    Prepared processors fs hs root config := by
  obtain ⟨hadded,hconfigured⟩ := ensureConfig_spec hfs hroot hprocessors hconfig
  have hgs := hadded.linkless hfs
  have hkept := hadded.kept fun _ => False
  have hroot' := hkept.dir _ hroot
  obtain ⟨hadded',hthere⟩ := ensureIgnoreFile_spec hgs hroot' hignore
  have hkept' := hadded'.kept fun _ => False
  refine ⟨hadded'.linkless hgs,hkept'.dir _ hroot',hkept.trans hkept',fun p hfree hnew => ?_,
    hconfigured.of_kept hgs hroot' hkept' id,hthere⟩
  by_cases hp : gs.kind? p = none
  · exact .inr (hadded'.new hp hnew)
  · exact .inl (hadded.new hfree hp)

private theorem Prepared.run_eq (h : Prepared processors fs gs root config) (hhs : hs.Linkless)
    (hkept : Kept gs hs (HookAt config commits)) {later : CommitSource}
    (hrepository : later.isRepository = true) :
    run processors hs root later = ((ensureHook hs config later).1,
      (ensureHook hs config later).2.map fun status => ⟨false, .existing, status⟩) := by
  have hconfigured := h.configured.of_kept h.linkless h.rootDir hkept not_hookAt_configPlace
  have hthere := hkept.exists? h.linkless hhs h.rootDir h.ignoreFile
  exact run_of_steps hrepository hconfigured.ensureConfig (ensureIgnoreFile_again hthere)

/-- The configuration that a project is set up with. -/
def Chosen (processors : Nat) (fs : FileSystem) (root : String) (config : Config) : Prop :=
  ∃ gs created, ensureConfig processors fs root = .ok (gs, config, created)

private theorem run_kept (hfs : fs.Linkless) (hroot : fs.kind? [] = some .dir)
    (hprocessors : processors < Nat.pow 2 64) : Kept fs (run processors fs root commits).1
      fun p => ∃ config, Chosen processors fs root config ∧ HookAt config commits p := by
  have hran := ran_run processors fs root commits
  generalize run processors fs root commits = r at hran
  cases hran with
  | refused e => exact FileSystem.kept_refl ..
  | unfinished configured => exact (ensureConfig_spec hfs hroot hprocessors configured).1.kept _
  | @hooked gs hs config created _ _ configured ignored =>
    have hprepared := prepared_of_steps hfs hroot hprocessors configured ignored
    refine (hprepared.kept.mono fun _ h => h.elim).trans
      ((ensureHook_kept hprepared.linkless hprepared.rootDir).mono fun p hp => ?_)
    exact ⟨config,⟨gs,created,configured⟩,hp⟩

private theorem run_new (hfs : fs.Linkless) (hroot : fs.kind? [] = some .dir)
    (hprocessors : processors < Nat.pow 2 64) {p : List String} (hfree : fs.kind? p = none)
    (hnew : (run processors fs root commits).1.kind? p ≠ none) :
    p = configPlace root ∨ ∃ config, Chosen processors fs root config ∧
      (p = ignorePlace root config.ignoreFile ∨ HookAt config commits p ∨
        (run processors fs root commits).1.kind? p = some .dir ∧ OnHooksWay config commits p) := by
  have hran := ran_run processors fs root commits
  generalize run processors fs root commits = r at hran hnew ⊢
  cases hran with
  | refused e => exact (hnew hfree).elim
  | unfinished configured =>
    exact .inl ((ensureConfig_spec hfs hroot hprocessors configured).1.new hfree hnew)
  | @hooked gs hs config created _ _ configured ignored =>
    have hprepared := prepared_of_steps hfs hroot hprocessors configured ignored
    by_cases hp : hs.kind? p = none
    · exact .inr ⟨config,⟨gs,created,configured⟩,
        .inr (ensureHook_new hprepared.linkless hprepared.rootDir hp hnew)⟩
    · rcases hprepared.new p hfree hp with rfl | rfl
      · exact .inl rfl
      · exact .inr ⟨config,⟨gs,created,configured⟩,.inl rfl⟩

private theorem run_again (hfs : fs.Linkless) (hroot : fs.kind? [] = some .dir)
    (hprocessors : processors < Nat.pow 2 64) {report : Report}
    (h : (run processors fs root commits).2 = .ok report) : ∃ config status,
      Config.loadFrom processors (run processors fs root commits).1 (Config.path root) =
        .ok config ∧
      Settled config commits status ∧
      run processors (run processors fs root commits).1 root commits =
        ((run processors fs root commits).1, .ok ⟨false, .existing, status⟩) := by
  have hran := ran_run processors fs root commits
  generalize run processors fs root commits = r at hran h ⊢
  cases hran with
  | refused e => cases h
  | unfinished configured => cases h
  | @hooked gs hs config created source repository configured ignored =>
    have hprepared := prepared_of_steps hfs hroot hprocessors configured ignored
    obtain ⟨hlinkless,hrootDir⟩ := And.intro hprepared.linkless hprepared.rootDir
    have hkept : Kept hs (ensureHook hs config commits).1 (HookAt config commits) :=
      ensureHook_kept hlinkless hrootDir
    cases hhook : (ensureHook hs config commits).2 with
    | error e =>
      rw [hhook] at h
      cases h
    | ok status =>
      obtain ⟨status',hsettled,hagain⟩ := ensureHook_again hlinkless hrootDir hhook
      have hconfigured := hprepared.configured.of_kept hlinkless hrootDir hkept
        not_hookAt_configPlace
      refine ⟨config,status',hconfigured.loadFrom,hsettled,?_⟩
      rw [hprepared.run_eq (ensureHook_linkless hlinkless hrootDir) hkept repository, hagain]
      rfl

/-- What a project has once it has been set up: a configuration, and the hook if it is asked for. -/
theorem run_configures (hfs : fs.Linkless) (hroot : fs.kind? [] = some .dir)
    (hprocessors : processors < Nat.pow 2 64) {report : Report}
    (h : (run processors fs root commits).2 = .ok report) :
    commits.isRepository = true ∧ ∃ config,
      Configured processors (run processors fs root commits).1 root config ∧
      (config.postCommitHook = true → ∃ dir script, commits.hooksDir = .ok dir ∧
        (run processors fs root commits).1.readText (Path.join dir Hook.fileName) = .ok script ∧
        Hook.isInstalled script = true) := by
  have hran := ran_run processors fs root commits
  generalize run processors fs root commits = r at hran h ⊢
  cases hran with
  | refused e => cases h
  | unfinished configured => cases h
  | @hooked gs hs config created source repository configured ignored =>
    have hprepared := prepared_of_steps hfs hroot hprocessors configured ignored
    obtain ⟨hlinkless,hrootDir⟩ := And.intro hprepared.linkless hprepared.rootDir
    refine ⟨repository,config,hprepared.configured.of_kept hlinkless hrootDir
      (ensureHook_kept hlinkless hrootDir) not_hookAt_configPlace,fun hasked => ?_⟩
    rcases ensureHook_cases config commits with ⟨-,dir,hdir,heq⟩ | ⟨e,-,heq⟩ | ⟨hoff,-⟩
    · have hinstalls := Hook.installs_install hlinkless hrootDir dir
      rw [heq hs] at h ⊢
      cases hresult : (Hook.install hs dir).2 with
      | error e =>
        rw [hresult] at h
        cases h
      | ok status =>
        rw [hresult] at hinstalls
        obtain ⟨script,hread,hinstalled⟩ := hinstalls.reads
        exact ⟨dir,script,hdir,hread,hinstalled⟩
    · rw [heq] at h
      cases h
    · rw [hasked] at hoff
      cases hoff

private theorem isRepository_of_ok {report : Report}
    (h : (run processors fs root commits).2 = .ok report) : commits.isRepository = true := by
  by_contra hrepository
  rw [run, if_pos (by simpa using hrepository)] at h
  cases h

private theorem run_later (hfs : fs.Linkless) (hroot : fs.kind? [] = some .dir)
    (hprocessors : processors < Nat.pow 2 64) {e : Error} (hdir : commits.hooksDir = .error e)
    {later : CommitSource} {report : Report}
    (h : (run processors (run processors fs root commits).1 root later).2 = .ok report) :
    (run processors fs root later).1 =
      (run processors (run processors fs root commits).1 root later).1 ∧
    ∃ report', (run processors fs root later).2 = .ok report' ∧ report'.hook = report.hook := by
  -- All is done but the hook, and that is what is left to do later.
  have hrepository := isRepository_of_ok h
  have hran := ran_run processors fs root commits
  generalize run processors fs root commits = r at hran h ⊢
  cases hran with
  | refused e => exact ⟨rfl,report,h,rfl⟩
  | unfinished configured ignored =>
    have hconfigured := (ensureConfig_spec hfs hroot hprocessors configured).2
    simp only [run, hrepository, hconfigured.ensureConfig, ignored] at h
    cases h
  | @hooked gs hs config created source repository configured ignored =>
    have hprepared := prepared_of_steps hfs hroot hprocessors configured ignored
    have hhook : (ensureHook hs config commits).1 = hs := by
      rcases ensureHook_cases config commits with ⟨-,dir,hok,-⟩ | ⟨e,-,heq⟩ | ⟨-,heq⟩
      · rw [hok] at hdir
        cases hdir
      · rw [heq]
      · rw [heq]
    have hlater := hprepared.run_eq hprepared.linkless
      (FileSystem.kept_refl hs (HookAt config commits)) hrepository
    rw [hhook] at h ⊢
    rw [hlater] at h ⊢
    rw [run_of_steps hrepository configured ignored]
    refine ⟨rfl,?_⟩
    cases hstatus : (ensureHook hs config later).2 with
    | error e =>
      rw [hstatus] at h
      cases h
    | ok status =>
      rw [hstatus] at h
      cases h
      exact ⟨_,rfl,rfl⟩

/-- Once a project has been set up, setting it up again finds all in place and changes nothing. One
time without a hooks directory makes no difference to a later one that succeeds. Whether it
succeeds or not, directories stay, files keep what they hold, and the file of the hook also keeps
it and goes on behind it. What is new is the configuration, the ignore file, the hook and the
directories on the way to the hook. -/
theorem run_converges (hprocessors : processors < Nat.pow 2 64) (hfs : fs.Linkless)
    (hroot : fs.kind? [] = some .dir) (root : String) (commits : CommitSource) :
    (∀ report, (run processors fs root commits).2 = .ok report → ∃ config status,
      Config.loadFrom processors (run processors fs root commits).1 (Config.path root) =
        .ok config ∧
      Settled config commits status ∧
      run processors (run processors fs root commits).1 root commits =
        ((run processors fs root commits).1, .ok ⟨false, .existing, status⟩)) ∧
    (∀ e, commits.hooksDir = .error e → ∀ later report,
      (run processors (run processors fs root commits).1 root later).2 = .ok report →
      (run processors fs root later).1 =
        (run processors (run processors fs root commits).1 root later).1 ∧
      ∃ report', (run processors fs root later).2 = .ok report' ∧ report'.hook = report.hook) ∧
    Kept fs (run processors fs root commits).1
      (fun p => ∃ config, Chosen processors fs root config ∧ HookAt config commits p) ∧
    ∀ p, fs.kind? p = none → (run processors fs root commits).1.kind? p ≠ none →
      p = configPlace root ∨ ∃ config, Chosen processors fs root config ∧
        (p = ignorePlace root config.ignoreFile ∨ HookAt config commits p ∨
          (run processors fs root commits).1.kind? p = some .dir ∧
            OnHooksWay config commits p) :=
  ⟨fun _ => run_again hfs hroot hprocessors,fun _ hdir _ _ => run_later hfs hroot hprocessors hdir,
    run_kept hfs hroot hprocessors,fun _ => run_new hfs hroot hprocessors⟩

def bareProject : FileSystem := ⟨.dir [("p", .dir [(".git", .dir [])])]⟩

def bareCommits : CommitSource where
  isRepository := true
  commit _ := .error (.git "no commits")
  branch := .ok "main"
  hooksDir := .ok "/p/.git/hooks"

private theorem write_free {path name : String} {dirs : List String}
    (h : FileSystem.reaches path dirs name = true) (hdir : fs.kind? dirs = some .dir)
    (hfree : fs.kind? (dirs ++ [name]) = none) (text : String) :
    fs.exists? path = false ∧ fs.isFile path = false ∧ ∃ gs, fs.writeText path text = .ok gs ∧
      ∀ p, gs.kind? p =
        if p = dirs ++ [name] then some (.file (Text.Utf8.encode text) false) else fs.kind? p := by
  have hnone := FileSystem.not_exists?_of_reaches h hdir hfree
  refine ⟨hnone,?_,FileSystem.write_ok _ h hdir hfree⟩
  rw [Bool.eq_false_iff]
  intro hfile
  obtain ⟨p,bytes,x,hstat⟩ := FileSystem.isFile_iff.mp hfile
  rw [FileSystem.exists?, hstat] at hnone
  cases hnone

private theorem bareProject_config : ∃ gs,
    ensureConfig 4 bareProject "/p" = .ok (gs, Config.forProject 4 bareProject "/p", true) ∧
      ∀ p, gs.kind? p ≠ bareProject.kind? p → p = ["p", "docshadow.config.json"] := by
  obtain ⟨-,hfile,gs,hwrite,hgs⟩ := @write_free bareProject (Config.path "/p")
    "docshadow.config.json" ["p"] (by decide) rfl rfl
    (Config.forProject 4 bareProject "/p").toJson.pretty
  refine ⟨gs,?_,fun p hp => ?_⟩
  · simp only [ensureConfig, Config.isPresent, hfile, Config.save, hwrite]
    rfl
  · by_contra hne
    exact hp ((hgs p).trans (if_neg hne))

private theorem bareProject_ignoreFile {gs : FileSystem}
    (h : ∀ p, gs.kind? p ≠ bareProject.kind? p → p = ["p", "docshadow.config.json"]) : ∃ hs,
    ensureIgnoreFile gs "/p" ".docignore" = .ok (hs, .template) ∧
      ∀ p, hs.kind? p ≠ bareProject.kind? p →
        p ∈ [["p", "docshadow.config.json"], ["p", ".docignore"]] := by
  have hkind (p : List String) (hp : p ≠ ["p", "docshadow.config.json"]) :
      gs.kind? p = bareProject.kind? p := by_contra fun hne => hp (h p hne)
  have hdir := hkind ["p"] (by decide)
  obtain ⟨-,hgit,-⟩ := @write_free gs (Path.join "/p" ".gitignore") ".gitignore" ["p"] (by decide)
    hdir (hkind _ (by decide)) ""
  obtain ⟨hfree,-,hs,hwrite,hhs⟩ := @write_free gs (Path.join "/p" ".docignore") ".docignore" ["p"]
    (by decide) hdir (hkind _ (by decide)) ignoreTemplate
  refine ⟨hs,?_,fun p hp => ?_⟩
  · simp only [ensureIgnoreFile, hfree, hgit, hwrite]
    rfl
  · by_contra hne
    simp only [List.mem_cons, not_or] at hne
    exact hp (((hhs p).trans (if_neg hne.2.1)).trans (hkind p hne.1))

private theorem bareProject_hook {hs : FileSystem} (hlinkless : hs.Linkless)
    (h : ∀ p, hs.kind? p ≠ bareProject.kind? p →
      p ∈ [["p", "docshadow.config.json"], ["p", ".docignore"]]) :
    ∃ status, (Hook.install hs "/p/.git/hooks").2 = .ok status := by
  have hkind (p : List String) (hp : p ∉ [["p", "docshadow.config.json"], ["p", ".docignore"]]) :
      hs.kind? p = bareProject.kind? p := by_contra fun hne => hp (h p hne)
  have hroot : hs.kind? [] = some .dir := hkind [] (by decide)
  obtain ⟨hnone,hmade⟩ := @FileSystem.makeDirs_ok hs "/p/.git/hooks" "hooks" ["p", ".git"]
    (by decide) (hkind _ (by decide)) (.inl (hkind _ (by decide)))
  have hgrown := FileSystem.makeDirs_grown hroot "/p/.git/hooks"
  rcases hdirs : hs.makeDirs "/p/.git/hooks" with ⟨made,failure⟩
  rw [hdirs] at hnone hmade hgrown
  obtain ⟨hfree,-,mid,hwrite,-⟩ := @write_free made (Path.join "/p/.git/hooks" Hook.fileName)
    "post-commit" ["p", ".git", "hooks"] (by decide) ((hmade _).trans (if_pos rfl))
    ((hmade _).trans ((if_neg (by decide)).trans (hkind _ (by decide))))
    ("#!/bin/sh\n" ++ Hook.body)
  obtain ⟨x,hfilled,hstat,-⟩ := FileSystem.write_filled (hgrown.linkless hlinkless)
    (hgrown.kind? hroot) hwrite
  obtain ⟨gs,hmode,-⟩ := FileSystem.makeExecutable_filled
    (hfilled.linkless (hgrown.linkless hlinkless)) (hfilled.dir (hgrown.kind? hroot)) hstat
  cases hnone
  have hplan : Hook.plan made (Path.join "/p/.git/hooks" Hook.fileName) =
      .ok (some ("#!/bin/sh\n" ++ Hook.body,
        .installed (Path.join "/p/.git/hooks" Hook.fileName))) := by
    rw [Hook.plan, hfree]
    rfl
  simp only [Hook.install, hdirs, hplan, hwrite, hmode]
  exact ⟨_,rfl⟩

theorem bareProject_runs : ∃ gs report,
    run 4 bareProject "/p" bareCommits = (gs, .ok report) ∧ report.configCreated = true ∧
      Configured 4 gs "/p" (Config.forProject 4 bareProject "/p") := by
  have hlinkless : bareProject.Linkless := FileSystem.linkless_of_root (by decide)
  obtain ⟨gs,hconfig,hgs⟩ := bareProject_config
  obtain ⟨hs,hignore,hhs⟩ := bareProject_ignoreFile hgs
  have hprepared := prepared_of_steps hlinkless rfl (by decide) hconfig hignore
  obtain ⟨status,hstatus⟩ := bareProject_hook hprepared.linkless hhs
  have hhook : ensureHook hs (Config.forProject 4 bareProject "/p") bareCommits =
      ((Hook.install hs "/p/.git/hooks").1, .ok status) := Prod.ext rfl hstatus
  have hkept : Kept hs (ensureHook hs (Config.forProject 4 bareProject "/p") bareCommits).1
      (HookAt (Config.forProject 4 bareProject "/p") bareCommits) :=
    ensureHook_kept hprepared.linkless hprepared.rootDir
  rw [hhook] at hkept
  refine ⟨(Hook.install hs "/p/.git/hooks").1,⟨true, .template, status⟩,?_,rfl,?_⟩
  · rw [run_of_steps rfl hconfig hignore, hhook]
    rfl
  · exact hprepared.configured.of_kept hprepared.linkless hprepared.rootDir hkept
      not_hookAt_configPlace

/-- A project of which only the repository is there is set up, and then set up again. -/
theorem run_converges_bare : ∃ gs report config status,
    run 4 bareProject "/p" bareCommits = (gs, .ok report) ∧ report.configCreated = true ∧
    Settled config bareCommits status ∧
    run 4 gs "/p" bareCommits = (gs, .ok ⟨false, .existing, status⟩) := by
  obtain ⟨gs,report,hrun,hcreated,-⟩ := bareProject_runs
  have hlinkless : bareProject.Linkless := FileSystem.linkless_of_root (by decide)
  have hfits : 4 < Nat.pow 2 64 := by decide
  obtain ⟨config,status,-,hsettled,hagain⟩ :=
    (run_converges hfits hlinkless rfl "/p" bareCommits).1 report (by rw [hrun])
  rw [hrun] at hagain
  exact ⟨gs,report,config,status,hrun,hcreated,hsettled,hagain⟩

end DocSnapshot.Setup
