import DocSnapshot.Proofs.FileSystem.Linkless

/-! Without links, changes succeed when nothing of the wrong kind stands in their way. -/
namespace DocSnapshot.FileSystem
open DocSnapshot.Path (isReal real names isName Leads tempName)

variable {fs gs : FileSystem} {made follow : Bool} {links : Nat} {here : List String}
  {path name : String} {dirs : List String}

/-- Names of directories are entered one by one. -/
theorem trace_dirs {parts : List String} (hnames : ∀ part ∈ parts, isName part = true)
    (hdir : fs.kind? (here.reverse ++ parts) = some .dir) :
    fs.trace made links here parts = some (links, parts.reverse ++ here) := by
  induction parts generalizing here with
  | nil => rw [trace]; rfl
  | cons p rest ih =>
    obtain ⟨hidle,hup⟩ := Path.not_idle_of_isName (hnames p List.mem_cons_self)
    have hbelow : fs.kind? ((p :: here).reverse ++ rest) = some .dir := by
      rwa [List.reverse_cons, List.append_assoc]
    have hp : fs.kind? (p :: here).reverse = some .dir := by
      cases rest with
      | nil => rwa [List.append_nil] at hbelow
      | cons q rest => exact kind?_above (List.cons_ne_nil q rest) (hbelow ▸ Option.some_ne_none _)
    rw [trace, if_neg hidle, if_neg hup, hp]
    refine (ih (fun part hpart => hnames part (List.mem_cons_of_mem p hpart)) hbelow).trans ?_
    rw [List.reverse_cons, List.append_assoc, List.singleton_append]

private theorem trace_free {parts : List String} (hnames : ∀ part ∈ parts, isName part = true)
    (hfree : ∀ zs, zs <+: parts → fs.kind? (here.reverse ++ zs) = none ∨
      fs.kind? (here.reverse ++ zs) = some .dir) :
    fs.trace true links here parts = some (links, parts.reverse ++ here) := by
  induction parts generalizing here with
  | nil => rw [trace]; rfl
  | cons p rest ih =>
    obtain ⟨hidle,hup⟩ := Path.not_idle_of_isName (hnames p List.mem_cons_self)
    have hbelow : ∀ zs, zs <+: rest → fs.kind? ((p :: here).reverse ++ zs) = none ∨
        fs.kind? ((p :: here).reverse ++ zs) = some .dir := by
      intro zs hzs
      rw [List.reverse_cons, List.append_assoc]
      exact hfree (p :: zs) (List.cons_prefix_cons.mpr ⟨rfl,hzs⟩)
    have henter := ih (fun part hpart => hnames part (List.mem_cons_of_mem p hpart)) hbelow
    rw [trace, if_neg hidle, if_neg hup]
    rcases hbelow [] List.nil_prefix with hk | hk <;> rw [List.append_nil] at hk <;> rw [hk] <;>
      simpa using henter

private theorem makeDir_free {dir : List String}
    (h : fs.resolve path false = .ok (.absent dir name false)) :
    fs.makeDir path = .ok (fs.put (dir ++ [name]) (.dir [])) := by
  rw [makeDir, h]
  rfl

private theorem makeDir_there {dir : List String} {es : List (String × Node)}
    (h : ∀ follow, fs.resolve path follow = .ok (.present dir (.dir es))) :
    fs.makeDir path = .error .alreadyExists ∧ fs.isDir path = true := by
  rw [makeDir, isDir, stat, h, h]
  exact ⟨rfl,rfl⟩

private theorem makeDir_below (hfs : fs.Linkless) (hroot : fs.kind? [] = some .dir)
    (h : refusal? path = none) (hpath : Leads path dirs name) (hname : isName name = true)
    {base : List String} (hbase : fs.trace false maxLinks [] dirs = some (maxLinks, base.reverse))
    (hfree : fs.kind? (base ++ [name]) = none ∨ fs.kind? (base ++ [name]) = some .dir) :
    (∃ gs, fs.makeDir path = .ok gs ∧ ∀ p, gs.kind? p =
      if p = base ++ [name] then some .dir else fs.kind? p) ∨
    (fs.makeDir path = .error .alreadyExists ∧ fs.isDir path = true ∧
      fs.kind? (base ++ [name]) = some .dir) := by
  have hresolve := fun follow => @resolve_name fs follow path name dirs hfs h hpath hname _ hbase
  simp only [List.reverse_reverse] at hresolve
  have hdir : fs.kind? base = some .dir := by simpa using kind?_of_trace hroot hbase hroot
  rcases hfree with hnone | hthere
  · rw [find?_of_kind?_none hnone] at hresolve
    exact .inl ⟨_,makeDir_free (hresolve false),kind?_put_leaf hdir (by simp [hnone]) rfl⟩
  · obtain ⟨es,hfind⟩ := find?_of_kind?_dir hthere
    rw [hfind] at hresolve
    obtain ⟨hmake,hisDir⟩ := makeDir_there hresolve
    exact .inr ⟨hmake,hisDir,hthere⟩

def Made (fs gs : FileSystem) (top way : List String) : Prop :=
  ∀ p, gs.kind? p = if top <+: p ∧ p <+: top ++ way then some .dir else fs.kind? p

private theorem made_of_there {top way : List String} (h : fs.kind? (top ++ way) = some .dir) :
    Made fs fs top way := by
  intro p
  split
  · next hp =>
    obtain ⟨rest,hrest⟩ := hp.2
    rw [← hrest] at h
    cases rest with
    | nil => rwa [List.append_nil] at h
    | cons q rest => exact kind?_above (List.cons_ne_nil q rest) (h ▸ Option.some_ne_none _)
  · rfl

private theorem Made.snoc {hs : FileSystem} {top way : List String} (h : Made fs gs top way)
    (h' : ∀ p, hs.kind? p = if p = top ++ way ++ [name] then some .dir else gs.kind? p) :
    Made fs hs top (way ++ [name]) := by
  intro p
  rw [h', h, ← List.append_assoc]
  by_cases hp : p = top ++ way ++ [name]
  · rw [if_pos hp, if_pos]
    rw [hp, List.append_assoc]
    exact ⟨List.prefix_append ..,List.prefix_refl _⟩
  · rw [if_neg hp]
    simp only [List.prefix_concat_iff, hp, false_or]

theorem Made.linkless {top way : List String} (h : Made fs gs top way) (hfs : fs.Linkless) :
    gs.Linkless := by
  intro p target
  rw [h]
  split
  · simp
  · exact hfs p target

private theorem Made.there {top way : List String} (h : Made fs gs top way) :
    gs.kind? (top ++ way) = some .dir := by
  rw [h, if_pos ⟨List.prefix_append ..,List.prefix_refl _⟩]

private theorem Made.kind?_end {top way : List String} (h : Made fs gs top way) (name : String) :
    gs.kind? (top ++ way ++ [name]) = fs.kind? (top ++ way ++ [name]) := by
  rw [h, if_neg]
  intro hp
  have hle := hp.2.length_le
  simp only [List.length_append, List.length_singleton] at hle
  omega

theorem Made.grown {top way : List String} (h : Made fs gs top way)
    (hfree : ∀ zs, zs <+: way → fs.kind? (top ++ zs) = none ∨ fs.kind? (top ++ zs) = some .dir) :
    Grown fs gs := by
  intro p
  rw [h]
  split
  · next hp =>
    obtain ⟨zs,rfl⟩ := hp.1
    rcases hfree zs ((List.prefix_append_right_inj top).mp hp.2) with hk | hk
    · exact .inr ⟨hk,rfl⟩
    · exact .inl hk.symm
  · exact .inl rfl

private theorem trace_there {above top way : List String}
    (htop : fs.trace false maxLinks [] above = some (maxLinks, top.reverse))
    (hway : ∀ part ∈ way, isName part = true) (hdir : fs.kind? (top ++ way) = some .dir) :
    fs.trace false maxLinks [] (above ++ way) = some (maxLinks, (top ++ way).reverse) := by
  rw [trace_append, htop, Option.bind_some, trace_dirs hway (by simpa using hdir)]
  simp

private theorem trace_missing (hfs : fs.Linkless) (hroot : fs.kind? [] = some .dir)
    {above top way : List String}
    (htop : fs.trace false maxLinks [] above = some (maxLinks, top.reverse))
    (hway : ∀ part ∈ way, isName part = true) (hnone : fs.kind? (top ++ way) = none) :
    fs.trace false maxLinks [] (above ++ way) = none := by
  cases hr : fs.trace false maxLinks [] (above ++ way) with
  | none => rfl
  | some r =>
    have hdir := kind?_of_trace hroot hr hroot
    rw [trace_append, htop, Option.bind_some] at hr
    rw [trace_names hway (fun path target => hfs _ target) hr] at hdir
    simp [hnone] at hdir

section
variable {above top way : List String}

private theorem makeDir_missing (hfs : fs.Linkless) (hroot : fs.kind? [] = some .dir)
    (h : refusal? path = none) (hpath : Leads path (above ++ way) name) (hname : isName name = true)
    (htop : fs.trace false maxLinks [] above = some (maxLinks, top.reverse))
    (hway : ∀ part ∈ way, isName part = true)
    (hfree : ∀ zs, zs <+: way → fs.kind? (top ++ zs) = none ∨ fs.kind? (top ++ zs) = some .dir)
    (hmissing : fs.kind? (top ++ way) = none) : fs.makeDir path = .error .notFound := by
  have hnone := trace_missing hfs hroot htop hway hmissing
  have hlater : fs.trace true maxLinks [] (above ++ way) =
      some (maxLinks, way.reverse ++ top.reverse) := by
    rw [trace_append, trace_of_strict htop, Option.bind_some]
    exact trace_free hway (by simpa using hfree)
  rw [makeDir, resolve_missing hfs h hpath hname hnone hlater]
  rfl

private theorem Made.ensureDir (hmade : Made fs gs top way) (hgrown : Grown fs gs)
    (hfs : fs.Linkless) (hroot : fs.kind? [] = some .dir) (h : refusal? path = none)
    (hpath : Leads path (above ++ way) name) (hname : isName name = true)
    (htop : fs.trace false maxLinks [] above = some (maxLinks, top.reverse))
    (hway : ∀ part ∈ way, isName part = true) (hmissing : fs.kind? (top ++ way) = none) :
    ∃ hs, gs.ensureDir path = .ok hs ∧ Made fs hs top (way ++ [name]) := by
  have htop' : gs.trace false maxLinks [] above = some (maxLinks, top.reverse) :=
    trace_of_kept (fun _ hk => hgrown.kind? hk) (fun _ _ hk => hgrown.kind? hk) htop
  have hfree : gs.kind? (top ++ way ++ [name]) = none := by
    rw [hmade.kind?_end, kind?_below (by simp [hmissing]) (by simp)]
  rcases makeDir_below (hmade.linkless hfs) (hgrown.kind? hroot) h hpath hname
    (trace_there htop' hway hmade.there) (.inl hfree) with ⟨hs,hmake,hkind⟩ | ⟨-,-,hk⟩
  · exact ⟨hs,by rw [FileSystem.ensureDir, hmake],hmade.snoc hkind⟩
  · rw [hfree] at hk
    cases hk

private theorem makeDirsWithin_succeeds (hfs : fs.Linkless) (hroot : fs.kind? [] = some .dir)
    {origin : String} (htop : fs.trace false maxLinks [] above = some (maxLinks, top.reverse))
    (hway : ∀ part ∈ way, isName part = true)
    (hfree : ∀ zs, zs <+: way → fs.kind? (top ++ zs) = none ∨ fs.kind? (top ++ zs) = some .dir)
    (horigin : Path.parent? origin = some path) (hnames : names path = above ++ way)
    (h : refusal? path = none) {n : Nat} (hn : way.length < n) :
    ∃ gs, fs.makeDirsWithin path n = (gs, none) ∧ Made fs gs top way := by
  induction n generalizing origin path way with
  | zero => omega
  | succ n ih =>
    rw [makeDirsWithin]
    rcases List.eq_nil_or_concat way with rfl | ⟨init,name,hconcat⟩
    · have htopDir : fs.kind? top = some .dir := by simpa using kind?_of_trace hroot htop hroot
      refine ⟨fs,?_,made_of_there (by rwa [List.append_nil])⟩
      split
      · rfl
      · next hne =>
        rw [List.append_nil] at hnames
        obtain ⟨es,hresolve⟩ := resolve_dir hfs hroot (by simpa using hne) h (hnames ▸ htop)
        obtain ⟨hmake,hisDir⟩ := makeDir_there hresolve
        simp only [hmake, hisDir, if_true]
    · rw [List.concat_eq_append] at hconcat
      subst hconcat
      have hname := hway name (by simp)
      have hinit := fun part hpart => hway part (List.mem_append_left [name] hpart)
      have hfreeInit : ∀ zs, zs <+: init →
          fs.kind? (top ++ zs) = none ∨ fs.kind? (top ++ zs) = some .dir := fun zs hzs =>
        hfree zs (hzs.trans (List.prefix_append ..))
      have hleads : Leads path (above ++ init) name :=
        Path.leads_of_parent? horigin (by rw [hnames, List.append_assoc])
      have hne := ne_empty_of_leads hleads hname
      rw [if_neg (by simpa using hne)]
      rcases hfreeInit init (List.prefix_refl _) with hmissing | hthere
      · have hmake := makeDir_missing hfs hroot h hleads hname htop hinit hfreeInit hmissing
        obtain ⟨dir,hdir,hdirNames⟩ := hleads.parent? hname
        rw [List.length_append, List.length_singleton] at hn
        obtain ⟨gs,hgs,hmade⟩ := ih hinit hfreeInit hdir hdirNames (refusal?_parent? h hdir)
          (Nat.lt_of_succ_lt_succ hn)
        obtain ⟨hs,hagain,hmade'⟩ := hmade.ensureDir (hmade.grown hfreeInit) hfs hroot h hleads
          hname htop hinit hmissing
        exact ⟨hs,by simp only [hmake, hdir, hgs, hagain],hmade'⟩
      · have hlast := hfree (init ++ [name]) (List.prefix_refl _)
        rw [← List.append_assoc] at hlast
        rcases makeDir_below hfs hroot h hleads hname (trace_there htop hinit hthere) hlast with
          ⟨gs,hmake,hkind⟩ | ⟨hmake,hisDir,hk⟩
        · exact ⟨gs,by rw [hmake],(made_of_there hthere).snoc hkind⟩
        · rw [List.append_assoc] at hk
          exact ⟨fs,by simp only [hmake, hisDir, if_true],made_of_there hk⟩

end

/-- Directories are made on a way where only directories stand. -/
theorem makeDirs_succeeds (hfs : fs.Linkless) (hroot : fs.kind? [] = some .dir)
    {above top way : List String} {origin : String}
    (htop : fs.trace false maxLinks [] above = some (maxLinks, top.reverse))
    (hway : ∀ part ∈ way, isName part = true)
    (hfree : ∀ zs, zs <+: way → fs.kind? (top ++ zs) = none ∨ fs.kind? (top ++ zs) = some .dir)
    (horigin : Path.parent? origin = some path) (hnames : names path = above ++ way)
    (h : refusal? path = none) :
    ∃ gs, fs.makeDirs path = (gs, none) ∧ Made fs gs top way := by
  refine makeDirsWithin_succeeds hfs hroot htop hway hfree horigin hnames h ?_
  have hle := Path.length_names_le path
  rw [hnames, List.length_append] at hle
  omega

section
variable {base : List String} {bytes : List UInt8} {x : Bool}

private theorem write_succeeds (hfs : fs.Linkless) (hroot : fs.kind? [] = some .dir)
    (h : refusal? path = none) (hpath : Leads path dirs name) (hname : isName name = true)
    (hbase : fs.trace false maxLinks [] dirs = some (maxLinks, base.reverse))
    (hfree : fs.kind? (base ++ [name]) ≠ some .dir) (bytes : List UInt8) :
    ∃ gs, fs.write path bytes = .ok gs ∧ ∀ p, gs.kind? p =
      if p = base ++ [name] then some (.file bytes (fs.executableAt (base ++ [name])))
      else fs.kind? p := by
  have hdir : fs.kind? base = some .dir := by simpa using kind?_of_trace hroot hbase hroot
  have hput := fun x => kind?_put_leaf hdir hfree (@rfl _ (Node.file bytes x).entries)
  rw [write, resolve_name hfs h hpath hname hbase]
  simp only [List.reverse_reverse]
  cases hfind : fs.find? (base ++ [name]) with
  | none =>
    rw [executableAt_of_none (show fs.kind? (base ++ [name]) = none by rw [kind?_eq, hfind]; rfl)]
    exact ⟨_,rfl,hput false⟩
  | some n =>
    have hk := kind?_of_find? hfind
    cases n with
    | file old x =>
      rw [executableAt_of_file hk]
      exact ⟨_,rfl,hput x⟩
    | link target => exact (hfs _ target hk).elim
    | dir es => exact (hfree hk).elim

private theorem rename_succeeds (hfs : fs.Linkless) (hroot : fs.kind? [] = some .dir)
    {source target old new : String} (hsource : refusal? source = none)
    (htarget : refusal? target = none) (hold : Leads source dirs old)
    (hnew : Leads target dirs new) (holdName : isName old = true) (hnewName : isName new = true)
    (hne : old ≠ new) (hbase : fs.trace false maxLinks [] dirs = some (maxLinks, base.reverse))
    (hfile : fs.kind? (base ++ [old]) = some (.file bytes x))
    (hfree : fs.kind? (base ++ [new]) ≠ some .dir) :
    ∃ gs, fs.rename source target = .ok gs ∧ ∀ p, gs.kind? p =
      if p = base ++ [new] then some (.file bytes x)
      else if p = base ++ [old] then none else fs.kind? p := by
  have hdir : fs.kind? base = some .dir := by simpa using kind?_of_trace hroot hbase hroot
  have hmove := @kind?_move fs base old new (.file bytes x) bytes x hdir rfl hfile hfree
  rw [rename, resolve_name hfs hsource hold holdName hbase]
  simp only [bind, Except.bind, resolve_name hfs htarget hnew hnewName hbase,
    List.reverse_reverse, find?_of_kind?_file hfile]
  cases htake : fs.find? (base ++ [new]) with
  | none => exact ⟨_,rfl,hmove⟩
  | some n =>
    have hplain : n.kind ≠ .dir := by
      intro hkind
      rw [kind?_of_find? htake, hkind] at hfree
      exact hfree rfl
    have hreplace : mayReplace (.file bytes x) n = .ok () := by
      rw [mayReplace_file rfl, if_neg hplain]
    simp only [hreplace, List.append_cancel_left_eq, List.singleton_inj, hne, if_false]
    exact ⟨_,rfl,hmove⟩

private theorem replace_succeeds (hfs : fs.Linkless) (hroot : fs.kind? [] = some .dir)
    (h : refusal? path = none) (htemp : refusal? (Artifact.tempPath path) = none)
    (hpath : Leads path dirs name) (hname : isName name = true)
    (hbase : fs.trace false maxLinks [] dirs = some (maxLinks, base.reverse))
    (htarget : fs.kind? (base ++ [name]) ≠ some .dir)
    (hbeside : fs.kind? (base ++ [tempName name]) ≠ some .dir) (bytes : List UInt8) :
    ∃ mid gs, fs.write (Artifact.tempPath path) bytes = .ok mid ∧
      mid.rename (Artifact.tempPath path) path = .ok gs ∧ ∀ p, gs.kind? p =
        if p = base ++ [name] then some (.file bytes (fs.executableAt (base ++ [tempName name])))
        else if p = base ++ [tempName name] then none else fs.kind? p := by
  have hleads := hpath.tempPath hname
  have htempName := Path.isName_tempName hname
  have hne := Path.tempName_ne name
  obtain ⟨mid,hwrite,hmid⟩ :=
    write_succeeds hfs hroot htemp hleads htempName hbase hbeside bytes
  have hkept : ∀ p, fs.kind? p = some .dir → mid.kind? p = some .dir := by
    intro p hk
    rw [hmid, if_neg, hk]
    rintro rfl
    exact hbeside hk
  have hmidFs : mid.Linkless := by
    intro p target
    rw [hmid]
    split
    · simp
    · exact hfs p target
  have hmidBase := @trace_of_kept _ _ false _ _ _ _ hkept
    (fun p target hk => (hfs p target hk).elim) hbase
  obtain ⟨gs,hrename,hgs⟩ := @rename_succeeds mid dirs base bytes _ hmidFs (hkept _ hroot) _ _ _ _
    htemp h hleads hpath htempName hname hne hmidBase (by rw [hmid, if_pos rfl])
    (by rw [hmid, if_neg (by simpa using hne.symm)]; exact htarget)
  refine ⟨mid,gs,hwrite,hrename,fun p => ?_⟩
  rw [hgs, hmid]
  split
  · rfl
  · split <;> rfl

end

/-- An artifact is put in its place on a way where only directories stand, when no directory has its
name or that of the temporary file. -/
theorem save_succeeds (hfs : fs.Linkless) (hroot : fs.kind? [] = some .dir) {a : Artifact}
    {above top way : List String}
    (htop : fs.trace false maxLinks [] above = some (maxLinks, top.reverse))
    (hway : ∀ part ∈ way, isName part = true)
    (hfree : ∀ zs, zs <+: way → fs.kind? (top ++ zs) = none ∨ fs.kind? (top ++ zs) = some .dir)
    (hpath : Leads a.path (above ++ way) name) (hname : isName name = true)
    (h : refusal? a.path = none) (htemp : refusal? (Artifact.tempPath a.path) = none)
    (htarget : fs.kind? (top ++ way ++ [name]) ≠ some .dir)
    (hbeside : fs.kind? (top ++ way ++ [tempName name]) ≠ some .dir) :
    ∃ made gs, a.save fs = (gs, none) ∧ Made fs made top way ∧ ∀ p, gs.kind? p =
      if p = top ++ way ++ [name] then
        some (.file (Text.Utf8.encode a.content)
          (made.executableAt (top ++ way ++ [tempName name])))
      else if p = top ++ way ++ [tempName name] then none else made.kind? p := by
  obtain ⟨dir,hdir,hdirNames⟩ := hpath.parent? hname
  obtain ⟨made,hmake,hmade⟩ := makeDirs_succeeds hfs hroot htop hway hfree hdir hdirNames
    (refusal?_parent? h hdir)
  have hgrown := hmade.grown hfree
  have htop' : made.trace false maxLinks [] above = some (maxLinks, top.reverse) :=
    trace_of_kept (fun _ hk => hgrown.kind? hk) (fun _ _ hk => hgrown.kind? hk) htop
  rw [← hmade.kind?_end] at htarget hbeside
  obtain ⟨mid,gs,hwrite,hrename,hkind⟩ := replace_succeeds (hmade.linkless hfs)
    (hgrown.kind? hroot) h htemp hpath hname (trace_there htop' hway hmade.there) htarget hbeside
    (Text.Utf8.encode a.content)
  refine ⟨made,gs,?_,hmade,hkind⟩
  simp [Artifact.save, Artifact.steps, hdir, FileStep.applyAll, FileStep.apply, hmake, hwrite,
    hrename]

end DocSnapshot.FileSystem
