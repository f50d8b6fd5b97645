import DocSnapshot.Proofs.Discovery
import DocSnapshot.Proofs.Snapshot.Output
import DocSnapshot.Snapshot.Run

/-! Writing artifacts in a world with faults. A step may fail or be cut short, and in between others
change their own files; still an artifact is either there as a whole or was never touched. -/
namespace DocSnapshot

inductive Ending where
  | finished
  | failed
  | stopped
  deriving DecidableEq, Repr

inductive Path.Above : String → String → Prop
  | self (path : String) : Above path path
  | up {above dir path : String} (h : Path.parent? path = some dir) (habove : Above above dir) :
      Above above path

/-- What may become of one change, and whether it is reported as made. It may be refused or never be
begun; of the directories to be made only the upper ones may be there; and a file that is not
written to its end may hold anything. -/
inductive FileStep.Attempt (fs : FileSystem) : FileStep → FileSystem → Bool → Prop
  | applied (step : FileStep) : Attempt fs step (step.apply fs).1 (step.apply fs).2.isNone
  | refused (step : FileStep) : Attempt fs step fs false
  | partly {dir path : String} (h : Path.Above dir path) :
      Attempt fs (.makeDirs path) (fs.makeDirs dir).1 false
  | torn {path : String} {gs : FileSystem} (bytes other : List UInt8)
      (h : fs.write path other = .ok gs) : Attempt fs (.write path bytes) gs false

namespace Layout
open DocSnapshot.Path (tempName)

/-- Changes to files that leave the output directory alone. -/
structure Spares (l : Layout) (fs gs : FileSystem) : Prop where
  wellFormed : gs.WellFormed
  output : l.output? gs = l.output? fs

/-- Steps made in order, each after any number of changes by others, up to one that is not made as
it should be. -/
inductive Performed (l : Layout) : List FileStep → FileSystem → FileSystem → Ending → Prop
  | done (fs : FileSystem) : Performed l [] fs fs .finished
  | edited {steps : List FileStep} {fs gs hs : FileSystem} {e : Ending} (h : l.Spares fs gs)
      (hrest : Performed l steps gs hs e) : Performed l steps fs hs e
  | made {step : FileStep} {steps : List FileStep} {fs gs hs : FileSystem} {e : Ending}
      (h : step.Attempt fs gs true) (hrest : Performed l steps gs hs e) :
      Performed l (step :: steps) fs hs e
  | broken {step : FileStep} {steps : List FileStep} {fs gs : FileSystem} {e : Ending}
      (h : step.Attempt fs gs false) (he : e ≠ .finished) : Performed l (step :: steps) fs gs e

def IsTemp (path : List String) : Prop := ∃ dirs name, path = dirs ++ [tempName name]

structure Kept (l : Layout) (fs gs : FileSystem) : Prop where
  plain : l.Plain gs
  bytes : ∀ path, ¬IsTemp path → l.bytes? gs path = l.bytes? fs path

structure Placed (l : Layout) (fs gs : FileSystem) (target : List String) (bytes : List UInt8) :
    Prop where
  plain : l.Plain gs
  bytes : ∀ path, ¬IsTemp path →
    l.bytes? gs path = if path = target then some bytes else l.bytes? fs path

variable {l : Layout} {fs gs hs : FileSystem}

theorem Plain.kept (hp : l.Plain fs) : l.Kept fs fs := ⟨hp,fun _ _ => rfl⟩

theorem Kept.trans (h : l.Kept fs gs) (h' : l.Kept gs hs) : l.Kept fs hs :=
  ⟨h'.plain,fun path hp => (h'.bytes path hp).trans (h.bytes path hp)⟩

theorem Placed.trans_left {target : List String} {bytes : List UInt8} (h : l.Kept fs gs)
    (h' : l.Placed gs hs target bytes) : l.Placed fs hs target bytes :=
  ⟨h'.plain,fun path hp => by rw [h'.bytes path hp, h.bytes path hp]⟩

theorem Spares.kind? (h : l.Spares fs gs) (path : List String) :
    l.kind? gs path = l.kind? fs path := by
  rw [kind?_eq, kind?_eq, h.output]

theorem Spares.plain (h : l.Spares fs gs) (hp : l.Plain fs) : l.Plain gs :=
  ⟨h.wellFormed.kind?_root,fun path target => h.kind? path ▸ hp.linkless path target⟩

theorem Spares.kept (h : l.Spares fs gs) (hp : l.Plain fs) : l.Kept fs gs :=
  ⟨h.plain hp,fun path _ => by rw [bytes?, bytes?, h.kind?]⟩

theorem Plain.grown (hp : l.Plain fs) (h : FileSystem.Grown fs gs) : l.Kept fs gs := by
  refine ⟨⟨h.kind? hp.root,fun path target => ?_⟩,fun path _ => ?_⟩
  · rcases kind?_of_grown h path with he | ⟨-,hdir⟩
    · exact he ▸ hp.linkless path target
    · simp [hdir]
  · rw [bytes?, bytes?]
    rcases kind?_of_grown h path with he | ⟨hnone,hdir⟩
    · rw [he]
    · rw [hnone, hdir]
      rfl

theorem Plain.attempt_makeDirs (hp : l.Plain fs) {path : String} {ok : Bool}
    (h : (FileStep.makeDirs path).Attempt fs gs ok) : l.Kept fs gs := by
  cases h with
  | applied => exact hp.grown (FileSystem.makeDirs_grown hp.root path)
  | refused => exact hp.kept
  | partly h => exact hp.grown (FileSystem.makeDirs_grown hp.root _)

private theorem Plain.write_temp (hp : l.Plain fs) {path name : String} {dirs : List String}
    {bytes : List UInt8} (hpath : l.Within path dirs name)
    (h : fs.write (Artifact.tempPath path) bytes = .ok gs) :
    l.Kept fs gs ∧ ∃ x, l.kind? gs (dirs ++ [tempName name]) = some (.file bytes x) := by
  obtain ⟨hroot,x,hkind⟩ := hp.write hpath.tempPath h
  refine ⟨⟨⟨hroot,fun p target => ?_⟩,fun p htemp => ?_⟩,x,by rw [hkind, if_pos rfl]⟩
  · rw [hkind]
    split
    · simp
    · exact hp.linkless p target
  · rw [bytes?, bytes?, hkind, if_neg]
    rintro rfl
    exact htemp ⟨dirs,name,rfl⟩

theorem Plain.attempt_write (hp : l.Plain fs) {path name : String} {dirs : List String}
    {bytes : List UInt8} {ok : Bool} (hpath : l.Within path dirs name)
    (h : (FileStep.write (Artifact.tempPath path) bytes).Attempt fs gs ok) :
    l.Kept fs gs ∧
      (ok = true → ∃ x, l.kind? gs (dirs ++ [tempName name]) = some (.file bytes x)) := by
  cases h with
  | applied =>
    rw [FileStep.apply]
    cases hw : fs.write (Artifact.tempPath path) bytes with
    | ok gs =>
      obtain ⟨hkept,hfile⟩ := hp.write_temp hpath hw
      exact ⟨hkept,fun _ => hfile⟩
    | error e => exact ⟨hp.kept,by simp⟩
  | refused => exact ⟨hp.kept,by simp⟩
  | torn _ other h => exact ⟨(hp.write_temp hpath h).1,by simp⟩

theorem Plain.attempt_rename (hp : l.Plain fs) {path name : String} {dirs : List String}
    {bytes : List UInt8} {x ok : Bool} (hpath : l.Within path dirs name)
    (hfile : l.kind? fs (dirs ++ [tempName name]) = some (.file bytes x))
    (h : (FileStep.rename (Artifact.tempPath path) path).Attempt fs gs ok) :
    if ok then l.Placed fs gs (dirs ++ [name]) bytes else gs = fs := by
  cases h with
  | refused => simp
  | applied =>
    rw [FileStep.apply]
    cases hr : fs.rename (Artifact.tempPath path) path with
    | error e => simp
    | ok gs =>
      obtain ⟨hroot,hkind⟩ := hp.rename hpath hfile hr
      refine ⟨⟨hroot,fun p target => ?_⟩,fun p htemp => ?_⟩
      · rw [hkind]
        split
        · simp
        · split
          · simp
          · exact hp.linkless p target
      · have hne : p ≠ dirs ++ [tempName name] := fun heq => htemp ⟨dirs,name,heq⟩
        rw [bytes?, bytes?, hkind, if_neg hne]
        split <;> rfl

private theorem performed_of_applyAll {steps rest : List FileStep} {failure : Option IoError}
    {e : Ending} (h : FileStep.applyAll fs steps = (gs, failure))
    (hrest : failure = none → l.Performed rest gs hs e)
    (hfailed : failure ≠ none → e = .failed ∧ hs = gs) : l.Performed (steps ++ rest) fs hs e := by
  induction steps generalizing fs with
  | nil =>
    cases h
    exact hrest rfl
  | cons step steps ih =>
    have hstep : step.Attempt fs (step.apply fs).1 (step.apply fs).2.isNone := .applied step
    rw [FileStep.applyAll] at h
    split at h
    · next mid hmid =>
      rw [hmid] at hstep
      exact .made hstep (ih h)
    · next mid err hmid =>
      cases h
      rw [hmid] at hstep
      obtain ⟨rfl,rfl⟩ := hfailed (by simp)
      exact .broken hstep (by simp)

theorem performed_of_persist (l : Layout) (fs : FileSystem) (artifacts : List Artifact) :
    l.Performed (artifacts.flatMap Artifact.steps) fs (Snapshot.persist fs artifacts).1
      (if (Snapshot.persist fs artifacts).2.isNone then .finished else .failed) := by
  induction artifacts generalizing fs with
  | nil => exact .done fs
  | cons a rest ih =>
    rw [Snapshot.persist, List.flatMap_cons]
    split
    · next mid hmid => exact performed_of_applyAll hmid (fun _ => ih mid) (by simp)
    · next mid err hmid => exact performed_of_applyAll hmid (by simp) (fun _ => ⟨rfl,rfl⟩)

private theorem performed_cons {step : FileStep} {steps : List FileStep} {e : Ending}
    (h : l.Performed (step :: steps) fs gs e) (hp : l.Plain fs) :
    ∃ before, l.Kept fs before ∧ (∀ path, l.kind? before path = l.kind? fs path) ∧
      ((e ≠ .finished ∧ step.Attempt before gs false) ∨
        ∃ mid, step.Attempt before mid true ∧ l.Performed steps mid gs e) := by
  -- Before a step is made, others may have changed their files, but not the output directory.
  generalize hall : step :: steps = all at h
  induction h with
  | done => cases hall
  | edited hspares hrest ih =>
    obtain ⟨before,hkept,hkind,hstep⟩ := ih (hspares.plain hp) hall
    refine ⟨before,(hspares.kept hp).trans hkept,fun path => ?_,hstep⟩
    rw [hkind, hspares.kind?]
  | made hstep hrest =>
    cases hall
    exact ⟨_,hp.kept,fun _ => rfl,.inr ⟨_,hstep,hrest⟩⟩
  | broken hstep he =>
    cases hall
    exact ⟨_,hp.kept,fun _ => rfl,.inl ⟨he,hstep⟩⟩

theorem Performed.nil {e : Ending} (h : l.Performed [] fs gs e) (hp : l.Plain fs) :
    e = .finished ∧ l.Kept fs gs := by
  generalize hall : ([] : List FileStep) = all at h
  induction h with
  | done => exact ⟨rfl,hp.kept⟩
  | edited hspares hrest ih =>
    obtain ⟨he,hkept⟩ := ih (hspares.plain hp) hall
    exact ⟨he,(hspares.kept hp).trans hkept⟩
  | made => cases hall
  | broken => cases hall

/-- An artifact is in its place as a whole, or work has ended and nothing but temporary files has
changed. -/
theorem Performed.artifact {a : Artifact} {rest : List FileStep} {e : Ending}
    {dirs : List String} {name : String} (h : l.Performed (a.steps ++ rest) fs gs e)
    (hp : l.Plain fs) (hpath : l.Within a.path dirs name) :
    (e ≠ .finished ∧ l.Kept fs gs) ∨
      ∃ mid, l.Placed fs mid (dirs ++ [name]) (Text.Utf8.encode a.content) ∧
        l.Performed rest mid gs e := by
  obtain ⟨dir,hdir,-⟩ := hpath.leads.parent? hpath.name
  rw [Artifact.steps, hdir] at h
  obtain ⟨fs₁,hkept,-,⟨he,hmake⟩ | ⟨fs₂,hmake,h⟩⟩ := performed_cons h hp
  · exact .inl ⟨he,hkept.trans (hkept.plain.attempt_makeDirs hmake)⟩
  · have hkept := hkept.trans (hkept.plain.attempt_makeDirs hmake)
    obtain ⟨fs₃,hsame,-,⟨he,hwrite⟩ | ⟨fs₄,hwrite,h⟩⟩ := performed_cons h hkept.plain
    · have hwrote := (hsame.plain.attempt_write hpath hwrite).1
      exact .inl ⟨he,hkept.trans (hsame.trans hwrote)⟩
    · obtain ⟨hwrote,hfile⟩ := hsame.plain.attempt_write hpath hwrite
      obtain ⟨x,hfile⟩ := hfile rfl
      have hkept := hkept.trans (hsame.trans hwrote)
      obtain ⟨fs₅,hsame,hkind,⟨he,hmove⟩ | ⟨mid,hmove,h⟩⟩ := performed_cons h hkept.plain
      · have hstill := hsame.plain.attempt_rename hpath ((hkind _).trans hfile) hmove
        rw [if_neg (by simp)] at hstill
        exact .inl ⟨he,hstill ▸ hkept.trans hsame⟩
      · have hmoved := hsame.plain.attempt_rename hpath ((hkind _).trans hfile) hmove
        rw [if_pos rfl] at hmoved
        exact .inr ⟨mid,.trans_left (hkept.trans hsame) hmoved,h⟩

end Layout

end DocSnapshot
