import DocSnapshot.Proofs.FileSystem.Directories
import DocSnapshot.Proofs.RoundTrip
import DocSnapshot.Proofs.Text.Utf8
import DocSnapshot.Setup

/-! The steps of setting up a project. Each of them adds its own file or finds it in place, keeps
everything else, and has nothing left to do when it is taken again. -/
namespace DocSnapshot
open FileSystem (partsOf destination Linkless Kept Filled Grown)
open DocSnapshot.Path (names isName Leads)
open Text.Utf8 (encode)

theorem Text.occursIn_append {part : List Char} (before : List Char) {text : List Char}
    (h : occursIn part text = true) : occursIn part (before ++ text) = true := by
  induction before with
  | nil => exact h
  | cons c before ih => rw [List.cons_append, occursIn, ih, Bool.or_true]

namespace FileSystem

variable {fs gs : FileSystem} {path : String}

theorem readText_eq_ok_iff {text : String} : fs.readText path = .ok text ↔
    ∃ p x, fs.stat path = .ok (p, .file (encode text) x) := by
  rw [readText, read]
  cases hstat : fs.stat path with
  | error e => simp [bind, Except.bind]
  | ok r =>
    obtain ⟨p,n⟩ := r
    cases n with
    | file bytes x =>
      have hdecode := @Text.Utf8.decode_eq_ok_iff bytes text
      simp only [bind, Except.bind, pure, Except.pure, Except.ok.injEq, Prod.mk.injEq,
        Node.file.injEq]
      cases hd : Text.Utf8.decode bytes with
      | error e =>
        rw [hd] at hdecode
        simp only [reduceCtorEq, false_iff] at hdecode
        simp [hdecode, throw, throwThe, MonadExceptOf.throw]
      | ok s =>
        rw [hd] at hdecode
        simpa using hdecode
    | _ => simp [bind, Except.bind, throw, throwThe, MonadExceptOf.throw]

/-- What `gs` is when `fs` is left alone, or a file is put at a place where nothing stood. -/
def Added (fs gs : FileSystem) (place : List String) : Prop :=
  gs = fs ∨ fs.kind? place = none ∧ ∃ bytes x, Filled fs gs place bytes x

section Added
variable {place : List String}

theorem Added.linkless (h : Added fs gs place) (hfs : fs.Linkless) : gs.Linkless := by
  rcases h with rfl | ⟨-,bytes,x,hfilled⟩
  · exact hfs
  · exact hfilled.linkless hfs

theorem Added.kept (h : Added fs gs place) (extended : List String → Prop) :
    Kept fs gs extended := by
  rcases h with rfl | ⟨hnone,bytes,x,hfilled⟩
  · exact kept_refl _ extended
  · refine hfilled.kept fun old y hfile => ?_
    rw [kind?_of_find? hfile] at hnone
    cases hnone

theorem Added.new (h : Added fs gs place) {p : List String} (hfree : fs.kind? p = none)
    (hnew : gs.kind? p ≠ none) : p = place := by
  rcases h with rfl | ⟨-,bytes,x,hfilled⟩
  · exact (hnew hfree).elim
  · by_contra hp
    exact hnew ((hfilled.kind p hp).trans hfree)

end Added

end FileSystem

namespace Hook

variable {fs gs : FileSystem} {dir : String}

def place (dir : String) : List String := destination (partsOf (Path.join dir fileName))

theorem place_eq (dir : String) : place dir = destination (names dir) ++ [fileName] := by
  have hparts : partsOf fileName = [] ++ [fileName] := Path.partsOf_name (by decide)
  have hleads := Path.leads_join dir (⟨[],hparts,rfl⟩ : Leads fileName [] fileName) (by decide)
  rw [List.append_nil] at hleads
  exact FileSystem.destination_leads hleads (by decide)

private theorem isInstalled_append_body (script : String) :
    isInstalled (script ++ body) = true := by
  rw [isInstalled, String.toList_append]
  exact Text.occursIn_append _ (by decide)

private theorem plan_spec {path script : String} {status : Status}
    (h : plan fs path = .ok (some (script, status))) :
    isInstalled script = true ∧ ∀ p old x, fs.stat path = .ok (p, .file old x) →
      old <+: encode script := by
  rw [plan] at h
  split at h
  · cases hread : fs.readText path with
    | error e =>
      rw [hread] at h
      cases h
    | ok before =>
      rw [hread] at h
      obtain ⟨p,x,hstat⟩ := FileSystem.readText_eq_ok_iff.mp hread
      simp only [bind, Except.bind] at h
      split at h
      · cases h
      · cases h
        refine ⟨isInstalled_append_body _,fun p' old x' hstat' => ?_⟩
        rw [hstat] at hstat'
        cases hstat'
        rw [appendTo, String.append_assoc, String.append_assoc, Text.Utf8.encode_append]
        exact List.prefix_append ..
  · next hfree =>
    cases h
    refine ⟨isInstalled_append_body _,fun p old x hstat => ?_⟩
    rw [FileSystem.exists?, hstat] at hfree
    exact (hfree rfl).elim

private theorem written_spec (hfs : fs.Linkless) (hroot : fs.kind? [] = some .dir)
    {script : String} {status : Status} {mid : FileSystem}
    (hplan : plan fs (Path.join dir fileName) = .ok (some (script, status)))
    (hwrite : fs.writeText (Path.join dir fileName) script = .ok mid) :
    ∃ gs, mid.makeExecutable (Path.join dir fileName) = .ok gs ∧
      Filled fs gs (place dir) (encode script) true ∧
      gs.readText (Path.join dir fileName) = .ok script ∧
      ∀ old x, fs.find? (place dir) = some (.file old x) → old <+: encode script := by
  obtain ⟨x,hfilled,hstat,hbefore⟩ := FileSystem.write_filled hfs hroot hwrite
  obtain ⟨gs,hmode,hfilled',hstat'⟩ := FileSystem.makeExecutable_filled (hfilled.linkless hfs)
    (hfilled.dir hroot) hstat
  refine ⟨gs,hmode,hfilled.trans hfilled',FileSystem.readText_eq_ok_iff.mpr ⟨_,_,hstat'⟩,?_⟩
  intro old y hfile
  rcases hbefore with ⟨old',hold⟩ | hnone
  · have hfind := FileSystem.find?_of_stat hroot hold
    rw [← place, hfile] at hfind
    cases hfind
    exact (plan_spec hplan).2 _ _ _ hold
  · rw [← place, FileSystem.kind?_of_find? hfile] at hnone
    cases hnone

/-- What installing the hook does: its directory is made, and then it is found in place or is put
there, unless something fails. -/
inductive Installs (fs : FileSystem) (dir : String) : FileSystem → Except Error Status → Prop where
  | fails {made : FileSystem} {failure : Option IoError} {e : Error}
      (dirs : fs.makeDirs dir = (made, failure)) : Installs fs dir made (.error e)
  | finds {made : FileSystem} {script : String} (dirs : fs.makeDirs dir = (made, none))
      (reads : made.readText (Path.join dir fileName) = .ok script)
      (installed : isInstalled script = true) :
      Installs fs dir made (.ok (.alreadyInstalled (Path.join dir fileName)))
  | writes {made gs : FileSystem} {script : String} {status : Status}
      (dirs : fs.makeDirs dir = (made, none)) (installed : isInstalled script = true)
      (filled : Filled made gs (place dir) (encode script) true)
      (reads : gs.readText (Path.join dir fileName) = .ok script)
      (goesOn : ∀ old x, made.find? (place dir) = some (.file old x) → old <+: encode script) :
      Installs fs dir gs (.ok status)

private theorem plan_none {path : String} (h : plan fs path = .ok none) :
    ∃ script, fs.readText path = .ok script ∧ isInstalled script = true := by
  rw [plan] at h
  split at h
  · cases hread : fs.readText path with
    | error e =>
      rw [hread] at h
      cases h
    | ok script =>
      simp only [hread, bind, Except.bind] at h
      split at h
      · next hinstalled => exact ⟨script,rfl,hinstalled⟩
      · cases h
  · cases h

theorem installs_install (hfs : fs.Linkless) (hroot : fs.kind? [] = some .dir) (dir : String) :
    Installs fs dir (install fs dir).1 (install fs dir).2 := by
  generalize h : install fs dir = r
  rw [install] at h
  have hgrown := FileSystem.makeDirs_grown hroot dir
  split at h
  · next made e hdirs =>
    cases h
    exact .fails hdirs
  · next made hdirs =>
    rw [hdirs] at hgrown
    split at h
    · cases h
      exact .fails hdirs
    · next hplan =>
      cases h
      obtain ⟨script,hread,hinstalled⟩ := plan_none hplan
      exact .finds hdirs hread hinstalled
    · next script status hplan =>
      split at h
      · cases h
        exact .fails hdirs
      · next mid hwrite =>
        obtain ⟨gs,hmode,hfilled,hread,hgoesOn⟩ := written_spec (hgrown.linkless hfs)
          (hgrown.kind? hroot) hplan hwrite
        rw [hmode] at h
        cases h
        exact .writes hdirs (plan_spec hplan).1 hfilled hread hgoesOn

section Installs
variable {result : Except Error Status}

theorem Installs.linkless (h : Installs fs dir gs result) (hfs : fs.Linkless)
    (hroot : fs.kind? [] = some .dir) : gs.Linkless := by
  have hgrown := FileSystem.makeDirs_grown hroot dir
  cases h with
  | fails dirs | finds dirs =>
    rw [dirs] at hgrown
    exact hgrown.linkless hfs
  | writes dirs _ filled =>
    rw [dirs] at hgrown
    exact filled.linkless (hgrown.linkless hfs)

/-- Everything is kept, but the hook may be added to the file in its place. -/
theorem Installs.kept (h : Installs fs dir gs result) (hroot : fs.kind? [] = some .dir) :
    Kept fs gs (· = place dir) := by
  have hkept := FileSystem.makeDirs_kept hroot dir (· = place dir)
  cases h with
  | fails dirs | finds dirs => rwa [dirs] at hkept
  | writes dirs _ filled _ goesOn =>
    rw [dirs] at hkept
    exact hkept.trans (filled.kept fun old x hfile => ⟨goesOn old x hfile,rfl⟩)

/-- What is new is the hook, or a directory on the way to it. -/
theorem Installs.new (h : Installs fs dir gs result) (hfs : fs.Linkless)
    (hroot : fs.kind? [] = some .dir) {p : List String} (hfree : fs.kind? p = none)
    (hnew : gs.kind? p ≠ none) : p = place dir ∨
      gs.kind? p = some .dir ∧ ∃ parts, parts <+: names dir ∧ p = destination parts := by
  have halong := FileSystem.makeDirs_along hroot dir p
  have hmade : (fs.makeDirs dir).1.kind? p ≠ none → (fs.makeDirs dir).1.kind? p = some .dir ∧
      ∃ parts, parts <+: names dir ∧ p = destination parts := by
    intro hthere
    rcases halong with hsame | ⟨-,hdir,parts,r,hparts,htrace,hp⟩
    · exact (hthere (hsame.trans hfree)).elim
    · rw [FileSystem.trace_settle hfs htrace] at hp
      exact ⟨hdir,parts,hparts,hp⟩
  cases h with
  | fails dirs | finds dirs =>
    rw [dirs] at hmade
    exact .inr (hmade hnew)
  | writes dirs _ filled =>
    rw [dirs] at hmade
    by_cases hp : p = place dir
    · exact .inl hp
    · rw [filled.kind p hp] at hnew ⊢
      exact .inr (hmade hnew)

/-- A hook that has been installed can be read. -/
theorem Installs.reads {status : Status} (h : Installs fs dir gs (.ok status)) :
    ∃ script, gs.readText (Path.join dir fileName) = .ok script ∧ isInstalled script = true := by
  cases h with
  | finds _ reads installed => exact ⟨_,reads,installed⟩
  | writes _ installed _ reads => exact ⟨_,reads,installed⟩

/-- A hook that has been installed is found in place, whatever else is added. -/
theorem Installs.again {status : Status} (h : Installs fs dir gs (.ok status)) (hfs : fs.Linkless)
    (hroot : fs.kind? [] = some .dir) :
    install gs dir = (gs, .ok (.alreadyInstalled (Path.join dir fileName))) := by
  have hgs := h.linkless hfs hroot
  obtain ⟨script,hread,hinstalled⟩ := h.reads
  have hdirs : gs.makeDirs dir = (gs, none) := by
    cases h with
    | finds dirs =>
      exact FileSystem.makeDirs_again hfs hroot dirs hgs (FileSystem.kept_refl _ fun _ => False)
    | @writes made _ _ _ dirs _ filled _ goesOn =>
      have hkept : Kept made gs (· = place dir) :=
        filled.kept fun old x hfile => ⟨goesOn old x hfile,rfl⟩
      exact FileSystem.makeDirs_again hfs hroot dirs hgs hkept
  have hthere : gs.exists? (Path.join dir fileName) = true := by
    obtain ⟨p,x,hstat⟩ := FileSystem.readText_eq_ok_iff.mp hread
    exact FileSystem.exists?_iff.mpr ⟨_,hstat⟩
  have hplan : plan gs (Path.join dir fileName) = .ok none := by
    rw [plan, if_pos hthere, hread]
    exact if_pos hinstalled
  rw [install, hdirs]
  simp only [hplan]

end Installs

end Hook

namespace Setup

variable {processors : Nat} {fs gs hs : FileSystem} {root : String} {config : Config}

def configPlace (root : String) : List String := destination (partsOf (Config.path root))

theorem configPlace_eq (root : String) :
    configPlace root = destination (names root) ++ ["docshadow.config.json"] := by
  have hparts : partsOf "docshadow.config.json" = [] ++ ["docshadow.config.json"] :=
    Path.partsOf_name (by decide)
  have hleads := Path.leads_join root (⟨[],hparts,rfl⟩ : Path.Leads _ [] _) (by decide)
  rw [List.append_nil] at hleads
  exact FileSystem.destination_leads hleads (by decide)

def ignorePlace (root file : String) : List String := destination (partsOf (Path.join root file))

/-- Whether the configuration file of a project holds a configuration. -/
def Configured (processors : Nat) (fs : FileSystem) (root : String) (config : Config) : Prop :=
  ∃ text x, fs.stat (Config.path root) = .ok (configPlace root, .file (encode text) x) ∧
    Config.ofText processors text = .ok config

theorem Configured.loadFrom (h : Configured processors fs root config) :
    Config.loadFrom processors fs (Config.path root) = .ok config := by
  obtain ⟨text,x,hstat,htext⟩ := h
  have hread := FileSystem.readText_eq_ok_iff.mpr ⟨_,x,hstat⟩
  simp only [Config.loadFrom, hread, htext]

theorem Configured.isPresent (h : Configured processors fs root config) :
    Config.isPresent fs root = true := by
  obtain ⟨text,x,hstat,-⟩ := h
  exact FileSystem.isFile_iff.mpr ⟨_,_,_,hstat⟩

theorem configured_of_loadFrom (hfs : fs.Linkless)
    (h : Config.loadFrom processors fs (Config.path root) = .ok config) :
    Configured processors fs root config := by
  rw [Config.loadFrom] at h
  split at h
  · cases h
  · next text hread =>
    obtain ⟨p,x,hstat⟩ := FileSystem.readText_eq_ok_iff.mp hread
    split at h
    · cases h
    · next c htext =>
      cases h
      obtain rfl : p = configPlace root := FileSystem.stat_settle hfs hstat
      exact ⟨text,x,hstat,htext⟩

/-- A configuration is kept unless something is added to its file. -/
theorem Configured.of_kept (h : Configured processors fs root config) (hfs : fs.Linkless)
    (hroot : fs.kind? [] = some .dir) {extended : List String → Prop} (hkept : Kept fs gs extended)
    (hplace : ¬extended (configPlace root)) : Configured processors gs root config := by
  obtain ⟨text,x,hstat,htext⟩ := h
  exact ⟨text,x,hkept.stat_file hfs hroot hplace hstat,htext⟩

/-- A configuration is found in place, or one that can be read again is put there. -/
theorem ensureConfig_spec (hfs : fs.Linkless) (hroot : fs.kind? [] = some .dir)
    (hprocessors : processors < Nat.pow 2 64) {created : Bool}
    (h : ensureConfig processors fs root = .ok (gs, config, created)) :
    FileSystem.Added fs gs (configPlace root) ∧ Configured processors gs root config := by
  rw [ensureConfig] at h
  split at h
  · cases hload : Config.loadFrom processors fs (Config.path root) with
    | error e =>
      rw [hload] at h
      cases h
    | ok c =>
      rw [hload] at h
      cases h
      exact ⟨.inl rfl,configured_of_loadFrom hfs hload⟩
  · next habsent =>
    cases hsave : (Config.forProject processors fs root).save fs root with
    | error e =>
      simp only [hsave] at h
      cases h
    | ok saved =>
      simp only [hsave] at h
      cases h
      rw [Config.save] at hsave
      split at hsave
      · next gs' hwrite =>
        cases hsave
        obtain ⟨x,hfilled,hstat,⟨old,hold⟩ | hnone⟩ := FileSystem.write_filled hfs hroot hwrite
        · exact (habsent (FileSystem.isFile_iff.mpr ⟨_,_,_,hold⟩)).elim
        · refine ⟨.inr ⟨hnone,_,x,hfilled⟩,_,x,hstat,?_⟩
          have hfits : (Config.forProject processors fs root).Fits :=
            ⟨hprocessors,by simp [Config.forProject, Config.standard]⟩
          exact (Config.reads_text Json.Writing.pretty 0 processors hfits).whole
      · cases hsave

theorem Configured.ensureConfig (h : Configured processors fs root config) :
    Setup.ensureConfig processors fs root = .ok (fs, config, false) := by
  rw [Setup.ensureConfig, if_pos h.isPresent, h.loadFrom]
  rfl

/-- An ignore file is found in place, or one is put there. -/
theorem ensureIgnoreFile_spec (hfs : fs.Linkless) (hroot : fs.kind? [] = some .dir) {file : String}
    {source : IgnoreFile} (h : ensureIgnoreFile fs root file = .ok (gs, source)) :
    FileSystem.Added fs gs (ignorePlace root file) ∧ gs.exists? (Path.join root file) = true := by
  rw [ensureIgnoreFile] at h
  split at h
  · next hthere =>
    cases h
    exact ⟨.inl rfl,hthere⟩
  · next hfree =>
    rw [Bool.not_eq_true] at hfree
    split at h
    · split at h
      · next copied hcopy =>
        cases h
        obtain ⟨bytes,x,hfilled,hstat,hnone⟩ := FileSystem.copy_filled hfs hroot hfree hcopy
        exact ⟨.inr ⟨hnone,bytes,x,hfilled⟩,FileSystem.exists?_iff.mpr ⟨_,hstat⟩⟩
      · cases h
    · split at h
      · next written hwrite =>
        cases h
        obtain ⟨x,hfilled,hstat,⟨old,hold⟩ | hnone⟩ := FileSystem.write_filled hfs hroot hwrite
        · rw [FileSystem.exists?, hold] at hfree
          cases hfree
        · exact ⟨.inr ⟨hnone,_,x,hfilled⟩,FileSystem.exists?_iff.mpr ⟨_,hstat⟩⟩
      · cases h

theorem ensureIgnoreFile_again {file : String} (h : fs.exists? (Path.join root file) = true) :
    ensureIgnoreFile fs root file = .ok (fs, .existing) := by
  rw [ensureIgnoreFile]
  simp only [h, if_true]

end Setup

end DocSnapshot
