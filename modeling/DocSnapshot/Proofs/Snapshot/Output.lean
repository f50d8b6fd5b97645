import DocSnapshot.Manifest
import DocSnapshot.Proofs.FileSystem.Effect

/-! The output directory as the kinds of what stands below it, and what the steps that write an
artifact do to this view. -/
namespace DocSnapshot.Layout
open FileSystem (partsOf maxLinks Grown)
open DocSnapshot.Path (names isName Leads tempName)

def output? (l : Layout) (fs : FileSystem) : Option Node := (fs.place l.outputDir).bind fs.find?

def kind? (l : Layout) (fs : FileSystem) (path : List String) : Option Kind :=
  (fs.place l.outputDir).bind fun dir => fs.kind? (dir ++ path)

/-- What a regular file holds, by its path from the output directory. -/
def bytes? (l : Layout) (fs : FileSystem) (path : List String) : Option (List UInt8) :=
  (l.kind? fs path).bind Kind.bytes?

def file? (l : Layout) (fs : FileSystem) (path : String) : Option (List UInt8) :=
  l.bytes? fs (partsOf path)

/-- A file system without links below the output directory. -/
structure Plain (l : Layout) (fs : FileSystem) : Prop where
  root : fs.kind? [] = some .dir
  linkless : ∀ path target, l.kind? fs path ≠ some (.link target)

structure Within (l : Layout) (path : String) (dirs : List String) (name : String) : Prop where
  leads : Leads path (names l.outputDir ++ dirs) name
  above : ∀ dir ∈ dirs, isName dir = true
  name : isName name = true

variable {l : Layout} {fs gs : FileSystem}

theorem kind?_eq (l : Layout) (fs : FileSystem) (path : List String) :
    l.kind? fs path = (l.output? fs).bind (Node.kind? path) := by
  rw [kind?, output?, Option.bind_assoc]
  congr 1
  funext dir
  exact fs.kind?_append dir path

theorem within_name (l : Layout) {name : String} (h : isName name = true) :
    l.Within (Path.join l.outputDir name) [] name := by
  have hparts : partsOf name = [] ++ [name] := Path.partsOf_name h
  have hleads : Leads name [] name := ⟨[],hparts,rfl⟩
  have habs : Path.isAbsolute name = false := Path.isAbsolute_of_names hparts (by simpa using h)
  exact ⟨Path.leads_join l.outputDir hleads habs,by simp,h⟩

/-- Where the record of a source goes. -/
theorem within_recordFile (l : Layout) {source name : String} {dirs : List String}
    (hsource : source = Scan.slashed (dirs ++ [name]))
    (hnames : ∀ part ∈ dirs ++ [name], isName part = true) :
    l.Within (l.recordFile source) dirs (Path.recordPath name) ∧
      partsOf (Path.recordPath source) = dirs ++ [Path.recordPath name] := by
  have hparts := Path.partsOf_recordPath hnames
  rw [← hsource] at hparts
  have hdirs : ∀ dir ∈ dirs, isName dir = true := fun dir hdir =>
    hnames dir (List.mem_append_left _ hdir)
  have hname := Path.isName_recordName (hnames name (by simp))
  have hleads : Leads (Path.recordPath source) dirs (Path.recordPath name) :=
    ⟨dirs,hparts,Path.real_of_names hdirs⟩
  have habs : Path.isAbsolute (Path.recordPath source) = false := by
    refine Path.isAbsolute_of_names hparts fun part hpart => ?_
    rcases List.mem_append.mp hpart with hdir | hlast
    · exact hdirs part hdir
    · exact List.mem_singleton.mp hlast ▸ hname
  exact ⟨⟨Path.leads_join l.outputDir hleads habs,hdirs,hname⟩,hparts⟩

theorem Within.tempPath {path name : String} {dirs : List String} (h : l.Within path dirs name) :
    l.Within (Artifact.tempPath path) dirs (tempName name) :=
  ⟨h.leads.tempPath h.name,h.above,Path.isName_tempName h.name⟩

private theorem place_of_trace {r : Nat × List String}
    (h : fs.trace true maxLinks [] (names l.outputDir) = some r) :
    fs.place l.outputDir = some r.2.reverse := by
  rw [names, FileSystem.trace_real] at h
  rw [FileSystem.place, h]
  rfl

/-- Whether the output directory is there, and where. -/
def Stands (l : Layout) (fs : FileSystem) (base : List String) : Prop :=
  ∃ n, fs.trace false maxLinks [] (names l.outputDir) = some (n, base.reverse)

theorem Stands.place {base : List String} (h : l.Stands fs base) :
    fs.place l.outputDir = some base := by
  obtain ⟨n,hn⟩ := h
  rw [place_of_trace (FileSystem.trace_of_strict hn), List.reverse_reverse]

theorem Stands.kind?_eq {base : List String} (h : l.Stands fs base) (path : List String) :
    l.kind? fs path = fs.kind? (base ++ path) := by
  rw [kind?, h.place]
  rfl

theorem Stands.kind?_base {base : List String} (h : l.Stands fs base)
    (hroot : fs.kind? [] = some .dir) : fs.kind? base = some .dir := by
  obtain ⟨n,hn⟩ := h
  simpa using FileSystem.kind?_of_trace hroot hn hroot

/-- Whoever leaves directories and links as they are leaves the output directory in its place. -/
theorem Stands.of_kept {base : List String} (h : l.Stands fs base)
    (hkept : ∀ p, fs.kind? p = some .dir ∨ (∃ target, fs.kind? p = some (.link target)) →
      gs.kind? p = fs.kind? p) : l.Stands gs base := by
  obtain ⟨n,hn⟩ := h
  exact ⟨n,FileSystem.trace_of_kept (fun p hk => (hkept p (.inl hk)).trans hk)
    (fun p t hk => (hkept p (.inr ⟨t,hk⟩)).trans hk) hn⟩

theorem Stands.of_grown {base : List String} (h : l.Stands fs base) (hgrown : Grown fs gs) :
    l.Stands gs base := by
  obtain ⟨n,hn⟩ := h
  exact ⟨n,FileSystem.trace_of_kept (fun _ hk => hgrown.kind? hk) (fun _ _ hk => hgrown.kind? hk)
    hn⟩

private theorem Plain.enter (hp : l.Plain fs) {dirs : List String} {r : Nat × List String}
    (hdirs : ∀ dir ∈ dirs, isName dir = true)
    (h : fs.trace false maxLinks [] (names l.outputDir ++ dirs) = some r) :
    ∃ base, l.Stands fs base ∧ r.2.reverse = base ++ dirs := by
  rw [FileSystem.trace_append, Option.bind_eq_some_iff] at h
  obtain ⟨base,hbase,hr⟩ := h
  have hstands : l.Stands fs base.2.reverse := ⟨base.1,by rw [hbase, List.reverse_reverse]⟩
  have hlinks : ∀ path target, fs.kind? (base.2.reverse ++ path) ≠ some (.link target) := by
    intro path target
    rw [← hstands.kind?_eq]
    exact hp.linkless path target
  refine ⟨base.2.reverse,hstands,?_⟩
  rw [FileSystem.trace_names hdirs hlinks hr]
  simp

private theorem Plain.kind?_enter (hp : l.Plain fs) {dirs : List String} {r : Nat × List String}
    (hdirs : ∀ dir ∈ dirs, isName dir = true)
    (h : fs.trace false maxLinks [] (names l.outputDir ++ dirs) = some r) (path : List String) :
    fs.kind? (r.2.reverse ++ path) = l.kind? fs (dirs ++ path) := by
  obtain ⟨base,hbase,hplace⟩ := hp.enter hdirs h
  rw [hplace, List.append_assoc, hbase.kind?_eq]

private theorem Plain.not_link (hp : l.Plain fs) {path name : String} {dirs : List String}
    (hpath : l.Within path dirs name) (r : Nat × List String) (target : String)
    (h : fs.trace false maxLinks [] (names l.outputDir ++ dirs) = some r) :
    fs.kind? (r.2.reverse ++ [name]) ≠ some (.link target) := by
  rw [hp.kind?_enter hpath.above h]
  exact hp.linkless _ target

/-- Writing below the output directory changes what stands at one path, and nothing else. -/
theorem Plain.write_at (hp : l.Plain fs) {path name : String} {dirs : List String}
    {bytes : List UInt8} (hpath : l.Within path dirs name) (h : fs.write path bytes = .ok gs) :
    ∃ base, l.Stands fs base ∧ l.Stands gs base ∧
      fs.kind? (base ++ (dirs ++ [name])) ≠ some .dir ∧ ∀ p, gs.kind? p =
        if p = base ++ (dirs ++ [name]) then
          some (.file bytes (fs.executableAt (base ++ (dirs ++ [name])))) else fs.kind? p := by
  obtain ⟨r,hr,hold,hkind⟩ :=
    FileSystem.write_effect hp.root hpath.leads hpath.name (hp.not_link hpath) h
  obtain ⟨base,hbase,hplace⟩ := hp.enter hpath.above hr
  refine ⟨base,hbase,hbase.of_kept fun p hor => ?_,?_,?_⟩
  · rw [hkind, if_neg]
    rintro rfl
    rcases hor with hdir | ⟨target,hk⟩
    · exact hold hdir
    · exact hp.not_link hpath r target hr hk
  · rwa [hplace, List.append_assoc] at hold
  · rwa [hplace, List.append_assoc] at hkind

theorem Plain.write (hp : l.Plain fs) {path name : String} {dirs : List String}
    {bytes : List UInt8} (hpath : l.Within path dirs name) (h : fs.write path bytes = .ok gs) :
    gs.kind? [] = some .dir ∧ ∃ x, ∀ p, l.kind? gs p =
      if p = dirs ++ [name] then some (.file bytes x) else l.kind? fs p := by
  obtain ⟨base,hfs,hgs,-,hkind⟩ := hp.write_at hpath h
  refine ⟨by rw [hkind, if_neg (by simp), hp.root],fs.executableAt (base ++ (dirs ++ [name])),
    fun p => ?_⟩
  rw [hgs.kind?_eq, hfs.kind?_eq, hkind]
  simp only [List.append_cancel_left_eq]

/-- Putting a temporary file in its place changes what stands at its two paths, and nothing
else. -/
theorem Plain.rename_at (hp : l.Plain fs) {path name : String} {dirs : List String}
    {bytes : List UInt8} {x : Bool} (hpath : l.Within path dirs name)
    (hfile : l.kind? fs (dirs ++ [tempName name]) = some (.file bytes x))
    (h : fs.rename (Artifact.tempPath path) path = .ok gs) :
    ∃ base, l.Stands fs base ∧ l.Stands gs base ∧
      fs.kind? (base ++ (dirs ++ [name])) ≠ some .dir ∧ ∀ p, gs.kind? p =
        if p = base ++ (dirs ++ [name]) then some (.file bytes x)
        else if p = base ++ (dirs ++ [tempName name]) then none else fs.kind? p := by
  have htemp := hpath.tempPath
  have hsource : ∀ r, fs.trace false maxLinks [] (names l.outputDir ++ dirs) = some r →
      fs.kind? (r.2.reverse ++ [tempName name]) = some (.file bytes x) := by
    intro r hr
    rw [hp.kind?_enter hpath.above hr, hfile]
  obtain ⟨r,hr,hfree,hkind⟩ := FileSystem.rename_effect hp.root htemp.leads hpath.leads htemp.name
    hpath.name (Path.tempName_ne name) hsource h
  obtain ⟨base,hbase,hplace⟩ := hp.enter hpath.above hr
  refine ⟨base,hbase,hbase.of_kept fun p hor => ?_,?_,?_⟩
  · rw [hkind, if_neg, if_neg]
    · rintro rfl
      simp [hsource r hr] at hor
    · rintro rfl
      rcases hor with hdir | ⟨target,hk⟩
      · exact hfree hdir
      · exact hp.not_link hpath r target hr hk
  · rwa [hplace, List.append_assoc] at hfree
  · rwa [hplace, List.append_assoc, List.append_assoc] at hkind

theorem Plain.rename (hp : l.Plain fs) {path name : String} {dirs : List String}
    {bytes : List UInt8} {x : Bool} (hpath : l.Within path dirs name)
    (hfile : l.kind? fs (dirs ++ [tempName name]) = some (.file bytes x))
    (h : fs.rename (Artifact.tempPath path) path = .ok gs) :
    gs.kind? [] = some .dir ∧ ∀ p, l.kind? gs p =
      if p = dirs ++ [name] then some (.file bytes x)
      else if p = dirs ++ [tempName name] then none else l.kind? fs p := by
  obtain ⟨base,hfs,hgs,-,hkind⟩ := hp.rename_at hpath hfile h
  refine ⟨by rw [hkind, if_neg (by simp), if_neg (by simp), hp.root],fun p => ?_⟩
  rw [hgs.kind?_eq, hfs.kind?_eq, hkind]
  simp only [List.append_cancel_left_eq]

/-- Whoever reads a file below the output directory reads what it holds. -/
theorem Plain.read (hp : l.Plain fs) {path name : String} {dirs : List String}
    {bytes : List UInt8} (hpath : l.Within path dirs name) (h : fs.read path = .ok bytes) :
    l.bytes? fs (dirs ++ [name]) = some bytes := by
  rw [FileSystem.read, FileSystem.stat] at h
  cases hfound : fs.resolve path true with
  | error e => rw [hfound] at h; cases h
  | ok found =>
    rw [hfound] at h
    obtain ⟨r,hr,⟨-,rfl⟩ | ⟨n,hn,rfl⟩⟩ :=
      FileSystem.resolve_leads hpath.leads hpath.name (fun _ => hp.not_link hpath) hfound
    · cases h
    · cases n with
      | file content x =>
        cases h
        rw [bytes?, ← hp.kind?_enter hpath.above hr, FileSystem.kind?_eq, hn]
        rfl
      | _ => cases h

/-- Making directories below a file system adds directories to the view. -/
theorem kind?_of_grown (h : Grown fs gs) (path : List String) :
    l.kind? gs path = l.kind? fs path ∨
      l.kind? fs path = none ∧ l.kind? gs path = some .dir := by
  rw [kind?, kind?, FileSystem.place, FileSystem.place, h.trace]
  cases fs.trace true maxLinks [] (partsOf l.outputDir) with
  | none => exact .inl rfl
  | some r => exact h _

end DocSnapshot.Layout
