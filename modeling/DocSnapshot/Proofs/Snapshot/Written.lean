import DocSnapshot.Proofs.FileSystem.Walk
import DocSnapshot.Proofs.Snapshot.Faults

/-! What is there once artifacts are written: each stands in its place, the temporary files are
gone, and all else is as it was but for directories made on the way. -/
namespace DocSnapshot
open FileSystem (partsOf Grown GrownAlong maxLinks)
open DocSnapshot.Path (names isName recordPath tempName)
open Text.Utf8 (encode)

/-- What an artifact is named after: a path, cut into directories that are not hidden and a name. -/
structure Path.Stem (stem : String) (dirs : List String) (name : String) : Prop where
  slashed : stem = Scan.slashed (dirs ++ [name])
  names : ∀ part ∈ dirs ++ [name], isName part = true
  shown : ∀ dir ∈ dirs, Node.isHiddenName dir = false

theorem Path.stem_of_name {name : String} (h : isName name = true) : Stem name [] name := by
  have hslashed : Scan.slashed [name] = name := by
    simp [Scan.slashed]
  exact ⟨hslashed.symm,by simpa using h,by simp⟩

theorem Path.Stem.partsOf {stem name : String} {dirs : List String} (h : Path.Stem stem dirs name) :
    partsOf stem = dirs ++ [name] := by
  rw [h.slashed]
  exact Path.partsOf_slashed (by simp) h.names

/-- A name is cut into no directories. -/
theorem Path.Stem.dirs_eq_nil {stem name : String} {dirs : List String}
    (h : Path.Stem stem dirs name) (hname : isName stem = true) : dirs = [] :=
  List.append_inj_left' (h.partsOf.symm.trans (Path.stem_of_name hname).partsOf) rfl

namespace Layout

def artifact (l : Layout) (e : String × String) : Artifact := ⟨l.recordFile e.1, e.2⟩

/-- Where the artifact named after a stem stands when the output directory is at `base`. -/
def targetAt (base : List String) (stem : String) : List String := base ++ partsOf (recordPath stem)

/-- Where its temporary file stands. -/
def tempAt (base : List String) (stem : String) : List String :=
  (targetAt base stem).dropLast ++ [tempName ((targetAt base stem).getLast?.getD "")]

variable {l : Layout} {fs gs hs : FileSystem} {base dirs : List String} {stem name : String}

theorem targetAt_eq (h : Path.Stem stem dirs name) (base : List String) :
    targetAt base stem = base ++ (dirs ++ [recordPath name]) := by
  rw [targetAt, h.slashed, Path.partsOf_recordPath h.names]

theorem tempAt_eq (h : Path.Stem stem dirs name) (base : List String) :
    tempAt base stem = base ++ (dirs ++ [tempName (recordPath name)]) := by
  rw [tempAt, targetAt_eq h, ← List.append_assoc, List.dropLast_concat, List.getLast?_concat,
    Option.getD_some, List.append_assoc]

theorem targetAt_inj {other : String} (h : targetAt base stem = targetAt base other) :
    stem = other :=
  Path.recordPath_inj (Path.partsOf_inj (List.append_cancel_left h))

theorem tempAt_inj {other : String} (h : tempAt base stem = tempAt base other) :
    stem = other := by
  obtain ⟨dirs,name,hparts⟩ := Path.partsOf_recordPath_concat stem
  obtain ⟨dirs',name',hparts'⟩ := Path.partsOf_recordPath_concat other
  refine @targetAt_inj base _ _ ?_
  rw [tempAt, tempAt, targetAt, targetAt, hparts, hparts', ← List.append_assoc,
    ← List.append_assoc, List.dropLast_concat, List.dropLast_concat, List.getLast?_concat,
    List.getLast?_concat] at h
  obtain ⟨hdirs,hname⟩ := List.append_inj' h rfl
  have hname : recordPath name = recordPath name' := Path.tempName_inj (List.singleton_inj.mp hname)
  rw [targetAt, targetAt, hparts, hparts', ← List.append_assoc, ← List.append_assoc, hdirs, hname]

theorem targetAt_ne_tempAt (base : List String) (stem other : String) :
    targetAt base stem ≠ tempAt base other := by
  intro heq
  obtain ⟨dirs,name,hparts⟩ := Path.partsOf_recordPath_concat stem
  rw [targetAt, tempAt, hparts, ← List.append_assoc] at heq
  exact Path.recordPath_ne_tempName name _ (List.singleton_inj.mp (List.append_inj_right' heq rfl))

/-- No directory on the way to an artifact is named like a temporary file, which is hidden. -/
theorem tempAt_ne_of_shown {other name' : String} {dirs' path : List String}
    (h : Path.Stem stem dirs name) (h' : Path.Stem other dirs' name') (hpath : path <+: dirs') :
    tempAt base stem ≠ base ++ path := by
  intro heq
  rw [tempAt_eq h, List.append_cancel_left_eq] at heq
  have hmem : tempName (recordPath name) ∈ dirs' := hpath.subset (by simp [← heq])
  have hhidden := h'.shown _ hmem
  simp [Node.isHiddenName, tempName] at hhidden

/-- Neither an artifact nor a temporary file is a source. -/
theorem not_target_of_source {dir path : List String} (h : Path.isSource (Scan.slashed path) = true)
    (base : List String) (stem : String) :
    dir ++ path ≠ targetAt base stem ∧ dir ++ path ≠ tempAt base stem := by
  obtain ⟨above,name,rfl⟩ : ∃ above name, path = above ++ [name] := by
    rcases List.eq_nil_or_concat path with rfl | ⟨above,name,hpath⟩
    · exact absurd h (by decide)
    · exact ⟨above,name,hpath.trans (List.concat_eq_append ..)⟩
  constructor <;> intro heq
  · obtain ⟨dirs,other,hparts⟩ := Path.partsOf_recordPath_concat stem
    rw [targetAt, hparts, ← List.append_assoc, ← List.append_assoc] at heq
    obtain rfl := List.singleton_inj.mp (List.append_inj_right' heq rfl)
    rw [← Path.recordPath_slashed, Path.isSource_recordPath] at h
    cases h
  · rw [tempAt, ← List.append_assoc] at heq
    obtain rfl := List.singleton_inj.mp (List.append_inj_right' heq rfl)
    rw [Path.isSource_tempPath] at h
    cases h

/-- Whether `gs` is what writing artifacts makes of `fs`, with the output directory at `base`. -/
structure Written (l : Layout) (base : List String) (files : List (String × String))
    (fs gs : FileSystem) : Prop where
  stands : l.Stands gs base
  plain : l.Plain gs
  ordered : fs.root.ordered = true → gs.root.ordered = true
  kept : ∀ p, fs.kind? p = some .dir → gs.kind? p = some .dir
  file : ∀ e ∈ files, gs.kind? (targetAt base e.1) =
    some (.file (encode e.2) (fs.executableAt (tempAt base e.1)))
  temp : ∀ e ∈ files, gs.kind? (tempAt base e.1) = none
  other : ∀ p, (∀ e ∈ files, p ≠ targetAt base e.1 ∧ p ≠ tempAt base e.1) →
    gs.kind? p = fs.kind? p ∨ fs.kind? p = none ∧ gs.kind? p = some .dir ∧
      ∃ e ∈ files, ∃ dirs name path, Path.Stem e.1 dirs name ∧ path <+: dirs ∧ p = base ++ path

theorem Written.file?_eq {files : List (String × String)} (h : l.Written base files fs gs)
    {content : String} (he : (stem, content) ∈ files) :
    l.file? gs (recordPath stem) = some (encode content) := by
  have hfile := h.file _ he
  rw [targetAt] at hfile
  rw [file?, bytes?, h.stands.kind?_eq, hfile]
  rfl

theorem Written.executableAt {files : List (String × String)} (h : l.Written base files fs gs)
    {p : List String} (hne : ∀ e ∈ files, p ≠ targetAt base e.1 ∧ p ≠ tempAt base e.1) :
    gs.executableAt p = fs.executableAt p :=
  FileSystem.executableAt_eq ((h.other p hne).imp_right fun ⟨hnone,hdir,_⟩ => ⟨hnone,hdir⟩)

/-- Outside the output directory nothing changes. -/
theorem Written.kind?_outside {files : List (String × String)} (h : l.Written base files fs gs)
    {p : List String} (hp : ¬base <+: p) : gs.kind? p = fs.kind? p := by
  have hne : ∀ e ∈ files, p ≠ targetAt base e.1 ∧ p ≠ tempAt base e.1 := by
    refine fun e _ => ⟨fun heq => hp ?_,fun heq => hp ?_⟩
    · rw [heq]
      exact List.prefix_append ..
    · obtain ⟨dirs,name,hparts⟩ := Path.partsOf_recordPath_concat e.1
      rw [heq, tempAt, targetAt, hparts, ← List.append_assoc, List.dropLast_concat,
        List.append_assoc]
      exact List.prefix_append ..
  rcases h.other p hne with hsame | ⟨-,-,e,-,dirs,name,path,-,-,heq⟩
  · exact hsame
  · exact (hp (heq ▸ List.prefix_append base path)).elim

/-- Sources are left as they are. -/
theorem Written.kind?_source {files : List (String × String)} (h : l.Written base files fs gs)
    {dir path : List String} {k : Kind} (hsource : Path.isSource (Scan.slashed path) = true)
    (hk : fs.kind? (dir ++ path) = some k) : gs.kind? (dir ++ path) = some k := by
  rcases h.other _ fun e _ => not_target_of_source hsource base e.1 with hsame | ⟨hnone,-⟩
  · rw [hsame, hk]
  · rw [hk] at hnone
    cases hnone

private theorem applyAll_cons {step : FileStep} {rest : List FileStep}
    (h : FileStep.applyAll fs (step :: rest) = (gs, none)) :
    ∃ mid, step.apply fs = (mid, none) ∧ FileStep.applyAll mid rest = (gs, none) := by
  rw [FileStep.applyAll] at h
  split at h
  · next mid hmid => exact ⟨mid,hmid,h⟩
  · cases h

private theorem write_of_apply {path : String} {bytes : List UInt8}
    (h : (FileStep.write path bytes).apply fs = (gs, none)) : fs.write path bytes = .ok gs := by
  rw [FileStep.apply] at h
  split at h
  · next hwrite => rw [hwrite, (Prod.mk.inj h).1]
  · cases h

private theorem rename_of_apply {source target : String}
    (h : (FileStep.rename source target).apply fs = (gs, none)) :
    fs.rename source target = .ok gs := by
  rw [FileStep.apply] at h
  split at h
  · next hrename => rw [hrename, (Prod.mk.inj h).1]
  · cases h

/-- An artifact is written in three steps. -/
theorem save_steps {a : Artifact} {dir : String} (hdir : Path.parent? a.path = some dir)
    (h : a.save fs = (gs, none)) : ∃ made mid, fs.makeDirs dir = (made, none) ∧
      made.write (Artifact.tempPath a.path) (encode a.content) = .ok mid ∧
      mid.rename (Artifact.tempPath a.path) a.path = .ok gs := by
  rw [Artifact.save, Artifact.steps, hdir] at h
  obtain ⟨made,hmake,h⟩ := applyAll_cons h
  obtain ⟨mid,hwrite,h⟩ := applyAll_cons h
  obtain ⟨last,hrename,h⟩ := applyAll_cons h
  cases h
  exact ⟨made,mid,hmake,write_of_apply hwrite,rename_of_apply hrename⟩

/-- What writing an artifact changes: directories are made, and then two paths change. -/
theorem Plain.save_at (hp : l.Plain fs) {a : Artifact} (hpath : l.Within a.path dirs name)
    (h : a.save fs = (gs, none)) :
    ∃ made base, GrownAlong fs made (names l.outputDir ++ dirs) ∧ l.Stands made base ∧
      l.Stands gs base ∧ l.Plain gs ∧ (fs.root.ordered = true → made.root.ordered = true) ∧
      (made.root.ordered = true → gs.root.ordered = true) ∧
      (∀ p, made.kind? p = some .dir → gs.kind? p = some .dir) ∧
      ∀ p, gs.kind? p = if p = base ++ (dirs ++ [name]) then
          some (.file (encode a.content)
            (made.executableAt (base ++ (dirs ++ [tempName name]))))
        else if p = base ++ (dirs ++ [tempName name]) then none else made.kind? p := by
  obtain ⟨dir,hdir,hnames⟩ := hpath.leads.parent? hpath.name
  obtain ⟨made,mid,hmake,hwrite,hrename⟩ := save_steps hdir h
  have halong := FileSystem.makeDirs_along hp.root dir
  rw [hmake, hnames] at halong
  have hpmade : l.Plain made := (hp.grown halong.grown).plain
  have hkept := (hpmade.attempt_write hpath (.applied (.write _ (encode a.content)))).1
  rw [FileStep.apply, hwrite] at hkept
  have hmadeOrdered : fs.root.ordered = true → made.root.ordered = true := by
    intro hfs
    have hstep := FileSystem.ordered_apply hp.root hfs (.makeDirs dir)
    rwa [FileStep.apply, hmake] at hstep
  have hordered : made.root.ordered = true → gs.root.ordered = true := fun hmade =>
    FileSystem.ordered_rename hkept.plain.root (FileSystem.ordered_write hmade hwrite) hrename
  obtain ⟨base,hbase,hmid,htempFree,hkind⟩ :=
    hpmade.write_at hpath.tempPath hwrite
  have hfile := (hmid.kind?_eq (dirs ++ [tempName name])).trans ((hkind _).trans (if_pos rfl))
  have hplaced := hkept.plain.attempt_rename hpath hfile (.applied _)
  rw [FileStep.apply, hrename] at hplaced
  obtain ⟨base',hmid',hgs,hfree,hkind'⟩ :=
    hkept.plain.rename_at hpath hfile hrename
  obtain rfl : base = base' := Option.some.inj (hmid.place.symm.trans hmid'.place)
  have hne : name ≠ tempName name := fun heq => Path.tempName_ne name heq.symm
  rw [hkind, if_neg (by simpa using hne)] at hfree
  have hall : ∀ p, gs.kind? p =
      if p = base ++ (dirs ++ [name]) then
        some (.file (encode a.content) (made.executableAt (base ++ (dirs ++ [tempName name]))))
      else if p = base ++ (dirs ++ [tempName name]) then none else made.kind? p := by
    intro p
    rw [hkind', hkind]
    split
    · rfl
    · split <;> rfl
  refine ⟨made,base,halong,hbase,hgs,Placed.plain hplaced,hmadeOrdered,hordered,?_,hall⟩
  intro p hdir
  rw [hall, if_neg, if_neg, hdir]
  · rintro rfl
    exact htempFree hdir
  · rintro rfl
    exact hfree hdir

/-- Once the output directory is there, directories are made only below it. -/
theorem Stands.grown_below (h : l.Stands fs base) (hp : l.Plain fs)
    (hdirs : ∀ dir ∈ dirs, isName dir = true)
    (hgrown : GrownAlong fs gs (names l.outputDir ++ dirs)) (p : List String) :
    gs.kind? p = fs.kind? p ∨ fs.kind? p = none ∧ gs.kind? p = some .dir ∧
      ∃ path, path <+: dirs ∧ p = base ++ path := by
  obtain ⟨n,hn⟩ := h
  refine (hgrown p).imp_right fun ⟨hnone,hdir,parts,r,hparts,hr,hpath⟩ => ⟨hnone,hdir,?_⟩
  rcases List.prefix_or_prefix_of_prefix hparts (List.prefix_append _ dirs) with hway | ⟨path,rfl⟩
  · obtain ⟨more,hmore⟩ := hway
    rw [← hmore, FileSystem.trace_append, Option.bind_eq_some_iff] at hn
    obtain ⟨r',hr',-⟩ := hn
    cases hr.symm.trans (FileSystem.trace_of_strict hr')
    rw [hpath, FileSystem.kind?_of_trace hp.root hr' hp.root] at hnone
    cases hnone
  · have hinit : path <+: dirs := (List.prefix_append_right_inj _).mp hparts
    rw [FileSystem.trace_append, FileSystem.trace_of_strict hn, Option.bind_some] at hr
    have hlinks : ∀ q target, fs.kind? (base.reverse.reverse ++ q) ≠ some (.link target) := by
      intro q target
      rw [List.reverse_reverse, ← Stands.kind?_eq ⟨n,hn⟩]
      exact hp.linkless q target
    have hnames : ∀ dir ∈ path, isName dir = true := fun dir hdir => hdirs dir (hinit.subset hdir)
    refine ⟨path,hinit,?_⟩
    rw [hpath, FileSystem.trace_names hnames hlinks hr]
    simp

private theorem written_nil (h : l.Stands fs base) (hp : l.Plain fs) : l.Written base [] fs fs :=
  ⟨h,hp,id,fun _ => id,by simp,by simp,fun _ _ => .inl rfl⟩

private theorem written_single {e : String × String} (hstem : Path.Stem e.1 dirs name)
    (hstands : l.Stands gs base) (hp : l.Plain gs)
    (hordered : fs.root.ordered = true → gs.root.ordered = true)
    (hkept : ∀ p, fs.kind? p = some .dir → gs.kind? p = some .dir)
    (hkind : ∀ p, gs.kind? p =
      if p = base ++ (dirs ++ [recordPath name]) then
        some (.file (encode e.2) (hs.executableAt (base ++ (dirs ++ [tempName (recordPath name)]))))
      else if p = base ++ (dirs ++ [tempName (recordPath name)]) then none else hs.kind? p)
    (hsame : ∀ p, hs.kind? p = fs.kind? p ∨ fs.kind? p = none ∧ hs.kind? p = some .dir ∧
      ∃ path, path <+: dirs ∧ p = base ++ path) : l.Written base [e] fs gs := by
  have hgrown : Grown fs hs := fun p => (hsame p).imp_right fun ⟨hnone,hdir,_⟩ => ⟨hnone,hdir⟩
  refine ⟨hstands,hp,hordered,hkept,?_,?_,fun p hne => ?_⟩
  · simp [targetAt_eq hstem, tempAt_eq hstem, hkind, hgrown.executableAt]
  · have hne : tempName (recordPath name) ≠ recordPath name := Path.tempName_ne _
    simp [tempAt_eq hstem, hkind, hne]
  · simp only [List.mem_singleton, forall_eq, targetAt_eq hstem, tempAt_eq hstem] at hne
    rw [hkind, if_neg hne.1, if_neg hne.2]
    refine (hsame p).imp_right fun ⟨hnone,hdir,path,hpath,heq⟩ => ⟨hnone,hdir,e,?_⟩
    exact ⟨List.mem_singleton_self e,dirs,name,path,hstem,hpath,heq⟩

/-- Later artifacts leave earlier ones in their places. -/
theorem Written.append {files more : List (String × String)} (h : l.Written base files fs gs)
    (h' : l.Written base more gs hs)
    (hstems : ∀ e ∈ files, ∃ dirs name, Path.Stem e.1 dirs name)
    (hapart : ∀ e ∈ files, ∀ e' ∈ more, e.1 ≠ e'.1) : l.Written base (files ++ more) fs hs := by
  refine ⟨h'.stands,h'.plain,h'.ordered ∘ h.ordered,fun p => h'.kept p ∘ h.kept p,fun e he => ?_,
    fun e he => ?_,fun p hne => ?_⟩
  · rcases List.mem_append.mp he with he | he
    · have hne : ∀ e' ∈ more, targetAt base e.1 ≠ targetAt base e'.1 ∧
          targetAt base e.1 ≠ tempAt base e'.1 := fun e' he' =>
        ⟨fun heq => hapart e he e' he' (targetAt_inj heq),targetAt_ne_tempAt base e.1 e'.1⟩
      rcases h'.other _ hne with hsame | ⟨hnone,-⟩
      · rw [hsame, h.file e he]
      · rw [h.file e he] at hnone
        cases hnone
    · have hne : ∀ e' ∈ files, tempAt base e.1 ≠ targetAt base e'.1 ∧
          tempAt base e.1 ≠ tempAt base e'.1 := fun e' he' =>
        ⟨(targetAt_ne_tempAt base e'.1 e.1).symm,
          fun heq => hapart e' he' e he (tempAt_inj heq).symm⟩
      rw [h'.file e he, h.executableAt hne]
  · rcases List.mem_append.mp he with he | he
    · by_cases hmore : ∃ e' ∈ more, tempAt base e.1 = tempAt base e'.1
      · obtain ⟨e',he',heq⟩ := hmore
        rw [heq, h'.temp e' he']
      · rw [not_exists] at hmore
        have hne : ∀ e' ∈ more, tempAt base e.1 ≠ targetAt base e'.1 ∧
            tempAt base e.1 ≠ tempAt base e'.1 := fun e' he' =>
          ⟨(targetAt_ne_tempAt base e'.1 e.1).symm,fun heq => hmore e' ⟨he',heq⟩⟩
        rcases h'.other _ hne with hsame | ⟨-,-,e',-,dirs',name',path,hstem',hpath,heq⟩
        · rw [hsame, h.temp e he]
        · obtain ⟨dirs,name,hstem⟩ := hstems e he
          exact (tempAt_ne_of_shown hstem hstem' hpath heq).elim
    · exact h'.temp e he
  · rw [List.forall_mem_append] at hne
    rcases h'.other p hne.2 with hsame | ⟨hnone,hdir,e,he,hpath⟩
    · rw [hsame]
      refine (h.other p hne.1).imp_right fun ⟨hnone,hdir,e,he,hpath⟩ => ⟨hnone,hdir,e,?_,hpath⟩
      exact List.mem_append_left _ he
    · rcases h.other p hne.1 with hbefore | ⟨-,hbefore,-⟩
      · exact .inr ⟨hbefore ▸ hnone,hdir,e,List.mem_append_right _ he,hpath⟩
      · rw [hnone] at hbefore
        cases hbefore

theorem persist_cons {a : Artifact} {rest : List Artifact}
    (h : Snapshot.persist fs (a :: rest) = (gs, none)) :
    ∃ mid, a.save fs = (mid, none) ∧ Snapshot.persist mid rest = (gs, none) := by
  rw [Snapshot.persist] at h
  split at h
  · next mid hmid => exact ⟨mid,hmid,h⟩
  · cases h

/-- Artifacts that are written to an output directory that is there. -/
theorem Stands.written {files : List (String × String)} (h : l.Stands fs base)
    (hp : l.Plain fs) (hstems : ∀ e ∈ files, ∃ dirs name, Path.Stem e.1 dirs name)
    (hapart : files.Pairwise fun e e' => e.1 ≠ e'.1)
    (hpersist : Snapshot.persist fs (files.map l.artifact) = (gs, none)) :
    l.Written base files fs gs := by
  induction files generalizing fs with
  | nil =>
    cases hpersist
    exact written_nil h hp
  | cons e files ih =>
    obtain ⟨mid,hsave,hrest⟩ := persist_cons hpersist
    obtain ⟨hfirst,hlater⟩ := List.pairwise_cons.mp hapart
    obtain ⟨dirs,name,hstem⟩ := hstems e List.mem_cons_self
    have hwithin := (l.within_recordFile hstem.slashed hstem.names).1
    obtain ⟨made,base',hgrown,hmade,hmid,hpmid,hfs,hordered,hkept,hkind⟩ :=
      hp.save_at hwithin hsave
    obtain rfl : base = base' :=
      Option.some.inj ((h.of_grown hgrown.grown).place.symm.trans hmade.place)
    have hwritten := written_single hstem hmid hpmid (hordered ∘ hfs)
      (fun p hdir => hkept p (hgrown.grown.kind? hdir)) hkind
      (h.grown_below hp hwithin.above hgrown)
    have hstems' := fun e' he' => hstems e' (List.mem_cons_of_mem _ he')
    refine hwritten.append (ih hmid hpmid hstems' hlater hrest) ?_ ?_
    · simpa using ⟨dirs,name,hstem⟩
    · simpa using hfirst

/-- Artifacts that are all written: directories are made, and from then on only what lies below the
output directory changes. -/
theorem Plain.written (hp : l.Plain fs) {files : List (String × String)} (hne : files ≠ [])
    (hstems : ∀ e ∈ files, ∃ dirs name, Path.Stem e.1 dirs name)
    (hapart : files.Pairwise fun e e' => e.1 ≠ e'.1)
    (hpersist : Snapshot.persist fs (files.map l.artifact) = (gs, none)) :
    ∃ made base, Grown fs made ∧ (fs.root.ordered = true → made.root.ordered = true) ∧
      l.Stands made base ∧ l.Written base files made gs := by
  cases files with
  | nil => exact (hne rfl).elim
  | cons e files =>
    obtain ⟨mid,hsave,hrest⟩ := persist_cons hpersist
    obtain ⟨hfirst,hlater⟩ := List.pairwise_cons.mp hapart
    obtain ⟨dirs,name,hstem⟩ := hstems e List.mem_cons_self
    have hwithin := (l.within_recordFile hstem.slashed hstem.names).1
    obtain ⟨made,base,hgrown,hmade,hmid,hpmid,hfs,hordered,hkept,hkind⟩ :=
      hp.save_at hwithin hsave
    have hwritten : l.Written base [e] made mid :=
      written_single hstem hmid hpmid hordered hkept hkind fun _ => .inl rfl
    have hstems' := fun e' he' => hstems e' (List.mem_cons_of_mem _ he')
    refine ⟨made,base,hgrown.grown,hfs,hmade,hwritten.append
      (hmid.written hpmid hstems' hlater hrest) ?_ ?_⟩
    · simpa using ⟨dirs,name,hstem⟩
    · simpa using hfirst

end Layout

end DocSnapshot
