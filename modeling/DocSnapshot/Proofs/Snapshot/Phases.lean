import Mathlib.Data.List.Chain
import DocSnapshot.Proofs.FileSystem.Blank
import DocSnapshot.Proofs.Snapshot.Pool
import DocSnapshot.Snapshot.Run

/-! The phases of runs, one after another on the same project. Each run ends as its last phase says,
only writing can fail once it has begun, and what fails earlier leaves the files as they were. -/
namespace DocSnapshot

def Phase.next : Phase → List Phase
  | .idle | .done | .failed => []
  | .discovering => [.extracting, .failed]
  | .extracting => [.indexing, .failed]
  | .indexing => [.persisting, .failed]
  | .persisting => [.done, .failed]

/-- One phase after another, in a run or from one run to the next. -/
def Phase.Follows (p q : Phase) : Prop := q ∈ p.next ∨ p.next = [] ∧ q = .discovering

def Error.precedesWriting : Error → Bool
  | .notARepository _ | .commitNotFound _ | .git _ | .discovery _ | .task _ | .cancelled
  | .deadlineExceeded _ => true
  | _ => false

/-- A call for a run: what the repository holds by then, what the world does meanwhile, the revision
asked for, and what has become of the files since the call before. -/
structure Call where
  commits : CommitSource
  env : Environment
  rev : Option String
  edit : FileSystem → FileSystem

structure Answered where
  call : Call
  before : FileSystem
  outcome : Outcome

namespace Snapshot

def during (s : Snapshot) (c : Call) : Snapshot := { s with commits := c.commits }

def answer (s : Snapshot) : FileSystem → List Call → List Answered
  | _, [] => []
  | fs, c :: rest =>
    let outcome := (s.during c).run c.env (c.edit fs) c.rev
    ⟨c, c.edit fs, outcome⟩ :: s.answer outcome.files rest

def recordsOf (s : Snapshot) (env : Environment) (fs : FileSystem) (sources : List String) :
    List Record :=
  sources.zipIdx.map fun (source, i) => Record.ofFile fs s.root source (env.clock i)

@[simp] theorem recordsOf_paths (s : Snapshot) (env : Environment) (fs : FileSystem)
    (sources : List String) : (s.recordsOf env fs sources).map (·.path) = sources := by
  rw [recordsOf, List.map_map]
  exact List.zipIdx_map_fst 0 sources

theorem workers_pos (s : Snapshot) : 0 < s.config.workers :=
  Nat.lt_of_lt_of_le Nat.one_pos (Nat.le_max_right ..)

/-- Extraction fails only when it is interrupted. -/
theorem extract_eq (s : Snapshot) (env : Environment) (fs : FileSystem) (sources : List String) :
    s.extract env fs sources =
      match (List.range sources.length).findSome? (s.interruption? env) with
      | some e => .error e
      | none => .ok (s.recordsOf env fs sources) := by
  rw [extract, Pool.run_eq s.workers_pos]
  cases (List.range sources.length).findSome? (s.interruption? env) <;> rfl

/-- Discovery needs a repository, the commit and the sources, one after another. -/
theorem discover_eq (s : Snapshot) (fs : FileSystem) (rev : Option String) :
    s.discover fs rev =
      if s.commits.isRepository = false then .error (.notARepository s.root)
      else match s.commits.commit rev with
        | .error e => .error e
        | .ok commit =>
          match Scan.run fs s.root (.load fs s.root s.config.ignoreFile) false with
          | .error e => .error (.discovery e)
          | .ok scan => .ok (commit, scan) := by
  rw [discover]
  cases s.commits.isRepository with
  | false => rfl
  | true =>
    cases s.commits.commit rev with
    | error e => rfl
    | ok commit =>
      cases Scan.run fs s.root (.load fs s.root s.config.ignoreFile) false <;> rfl

theorem discover_ok_iff {s : Snapshot} {fs : FileSystem} {rev : Option String} {commit : Commit}
    {scan : Scan} : s.discover fs rev = .ok (commit, scan) ↔
      s.commits.isRepository = true ∧ s.commits.commit rev = .ok commit ∧
        Scan.run fs s.root (.load fs s.root s.config.ignoreFile) false = .ok scan := by
  rw [discover_eq]
  cases s.commits.isRepository with
  | false => simp
  | true =>
    cases s.commits.commit rev with
    | error e => simp
    | ok found =>
      cases Scan.run fs s.root (.load fs s.root s.config.ignoreFile) false <;> simp

private theorem isDir_of_scan_error {fs : FileSystem} {root : String} {m : Ignore.Matcher}
    {follow : Bool} {e : DiscoveryError} (h : Scan.run fs root m follow = .error e) :
    fs.isDir root = false := by
  rw [Scan.run, Scan.walk] at h
  rw [FileSystem.isDir]
  cases hstat : fs.stat root with
  | error cause => rfl
  | ok found =>
    obtain ⟨p,n⟩ := found
    cases n with
    | dir es => rw [hstat] at h; cases h
    | _ => rfl

/-- Why a project has nothing to document: it has no repository, no such commit, or no directory. -/
theorem discover_error {s : Snapshot} {fs : FileSystem} {rev : Option String} {e : Error}
    (h : s.discover fs rev = .error e) :
    s.commits.isRepository = false ∨ s.commits.commit rev = .error e ∨
      fs.isDir s.root = false := by
  rw [discover_eq] at h
  split at h
  · next hrepo => exact .inl hrepo
  · split at h
    · next cause hcommit =>
      cases h
      exact .inr (.inl hcommit)
    · split at h
      · next hscan => exact .inr (.inr (isDir_of_scan_error hscan))
      · cases h

theorem persist_error {fs : FileSystem} {artifacts : List Artifact} {e : Error}
    (h : (persist fs artifacts).2 = some e) :
    ∃ a ∈ artifacts, ∃ cause, e = .persist a.path cause := by
  induction artifacts generalizing fs with
  | nil => simp [persist] at h
  | cons a rest ih =>
    rw [persist] at h
    split at h
    · obtain ⟨b,hb,hcause⟩ := ih h
      exact ⟨b,List.mem_cons_of_mem a hb,hcause⟩
    · next cause hsave => exact ⟨a,List.mem_cons_self,cause,(Option.some.inj h).symm⟩

/-- Whether artifacts can be written, and which of them cannot, is a matter of their paths alone. -/
theorem persist_alike {fs gs : FileSystem} {artifacts others : List Artifact}
    (hpaths : artifacts.map (·.path) = others.map (·.path)) (h : fs.blank = gs.blank) :
    (persist fs artifacts).2 = (persist gs others).2 := by
  induction artifacts generalizing fs gs others with
  | nil =>
    rw [List.map_nil, eq_comm, List.map_eq_nil_iff] at hpaths
    rw [hpaths]
    rfl
  | cons a rest ih =>
    cases others with
    | nil => simp at hpaths
    | cons b others =>
      rw [List.map_cons, List.map_cons, List.cons.injEq] at hpaths
      obtain ⟨herror,hfiles⟩ := Artifact.save_alike hpaths.1 h
      rw [persist, persist]
      rcases ha : a.save fs with ⟨fs',ea⟩
      rcases hb : b.save gs with ⟨gs',eb⟩
      rw [ha, hb] at herror hfiles
      cases herror
      cases ea with
      | none => exact ih hpaths.2 hfiles
      | some cause => rw [hpaths.1]

inductive Course (s : Snapshot) (env : Environment) (fs : FileSystem) (rev : Option String) :
    Outcome → Prop
  | undiscovered {e : Error} (h : s.discover fs rev = .error e) :
      Course s env fs rev ⟨[.discovering, .failed], fs, .error e⟩
  | halted {commit : Commit} {scan : Scan} {e : Error}
      (h : s.discover fs rev = .ok (commit, scan))
      (he : (List.range scan.files.length).findSome? (s.interruption? env) = some e) :
      Course s env fs rev ⟨[.discovering, .extracting, .failed], fs, .error e⟩
  | interrupted {commit : Commit} {scan : Scan} {e : Error}
      (h : s.discover fs rev = .ok (commit, scan))
      (hnone : (List.range scan.files.length).findSome? (s.interruption? env) = none)
      (he : s.interruption? env scan.files.length = some e) :
      Course s env fs rev ⟨[.discovering, .extracting, .indexing, .failed], fs, .error e⟩
  | unwritten {commit : Commit} {scan : Scan} {after : FileSystem} {e : Error}
      (h : s.discover fs rev = .ok (commit, scan))
      (hnone : (List.range (scan.files.length + 1)).findSome? (s.interruption? env) = none)
      (he : persist fs (s.artifacts env fs commit scan.files (s.recordsOf env fs scan.files)) =
        (after, some e)) :
      Course s env fs rev
        ⟨[.discovering, .extracting, .indexing, .persisting, .failed], after, .error e⟩
  | written {commit : Commit} {scan : Scan} {after : FileSystem}
      (h : s.discover fs rev = .ok (commit, scan))
      (hnone : (List.range (scan.files.length + 1)).findSome? (s.interruption? env) = none)
      (he : persist fs (s.artifacts env fs commit scan.files (s.recordsOf env fs scan.files)) =
        (after, none)) :
      Course s env fs rev
        ⟨[.discovering, .extracting, .indexing, .persisting, .done], after,
          .ok (s.report commit scan (s.recordsOf env fs scan.files))⟩

theorem run_course (s : Snapshot) (env : Environment) (fs : FileSystem) (rev : Option String) :
    Course s env fs rev (s.run env fs rev) := by
  rw [run]
  cases hd : s.discover fs rev with
  | error e => exact .undiscovered hd
  | ok found =>
    obtain ⟨commit,scan⟩ := found
    simp only [extract_eq]
    cases hi : (List.range scan.files.length).findSome? (s.interruption? env) with
    | some e => exact .halted hd hi
    | none =>
      cases hn : s.interruption? env scan.files.length with
      | some e => exact .interrupted hd hi hn
      | none =>
        have hnone : (List.range (scan.files.length + 1)).findSome? (s.interruption? env) =
            none := by
          rw [List.range_succ, List.findSome?_append, hi]
          simp [hn]
        simp only
        split
        · next after e he => exact .unwritten hd hnone he
        · next after he => exact .written hd hnone he

/-- A run that nothing interrupts comes to what writing its artifacts comes to. -/
theorem run_uninterrupted {s : Snapshot} {env : Environment} {fs : FileSystem}
    {rev : Option String} {commit : Commit} {scan : Scan}
    (h : s.discover fs rev = .ok (commit, scan))
    (hon : ∀ i ≤ scan.files.length, s.interruption? env i = none) :
    (s.run env fs rev).files =
        (persist fs (s.artifacts env fs commit scan.files (s.recordsOf env fs scan.files))).1 ∧
      (s.run env fs rev).result =
        match (persist fs
          (s.artifacts env fs commit scan.files (s.recordsOf env fs scan.files))).2 with
        | some e => .error e
        | none => .ok (s.report commit scan (s.recordsOf env fs scan.files)) := by
  have hnone : (List.range scan.files.length).findSome? (s.interruption? env) = none :=
    List.findSome?_eq_none_iff.mpr fun i hi => hon i (Nat.le_of_lt (List.mem_range.mp hi))
  simp only [run, h, extract_eq, hnone, hon _ (Nat.le_refl _)]
  rcases persist fs (s.artifacts env fs commit scan.files (s.recordsOf env fs scan.files)) with
    ⟨after,_ | e⟩ <;> exact ⟨rfl,rfl⟩

/-- What the world shows after the last look for interruptions makes no difference. -/
theorem run_of_agree {s : Snapshot} {env other : Environment} {fs : FileSystem}
    {rev : Option String} {commit : Commit} {scan : Scan}
    (h : s.discover fs rev = .ok (commit, scan)) (hclock : other.clock = env.clock)
    (hagree : ∀ i ≤ scan.files.length, other.cancelled i = env.cancelled i ∧
      other.elapsed i = env.elapsed i) :
    s.run other fs rev = s.run env fs rev := by
  have hi : ∀ i ≤ scan.files.length, s.interruption? other i = s.interruption? env i := by
    intro i hle
    rw [interruption?, interruption?, (hagree i hle).1, (hagree i hle).2]
  have hrange : (List.range scan.files.length).findSome? (s.interruption? other) =
      (List.range scan.files.length).findSome? (s.interruption? env) := by
    rw [← List.head?_filterMap, ← List.head?_filterMap]
    refine congrArg List.head? (List.filterMap_congr fun i hmem => ?_)
    exact hi i (Nat.le_of_lt (List.mem_range.mp hmem))
  simp only [run, h, extract_eq, hrange, hi _ (Nat.le_refl _), recordsOf, artifacts, hclock]

namespace Course

variable {s : Snapshot} {env : Environment} {fs : FileSystem} {rev : Option String} {o : Outcome}

private theorem phases_eq (h : Course s env fs rev o) :
    o.phases.head? = some .discovering ∧ o.phases.IsChain (fun p q => q ∈ p.next) := by
  cases h <;> simp [Phase.next]

private theorem result_iff (h : Course s env fs rev o) :
    ((∃ report, o.result = .ok report) ↔ o.phase = .done) ∧
      ((∃ e, o.result = .error e) ↔ o.phase = .failed) := by
  cases h <;> simp [Outcome.phase]

private theorem early (h : Course s env fs rev o) {e : Error} (he : o.result = .error e)
    (hearly : e.precedesWriting = true) : .persisting ∉ o.phases ∧ o.files = fs := by
  cases h with
  | unwritten hd hnone hp =>
    cases he
    obtain ⟨a,ha,cause,rfl⟩ := persist_error (congrArg Prod.snd hp)
    simp [Error.precedesWriting] at hearly
  | written hd hnone hp => simp at he
  | _ => simp

private theorem blameless (h : Course s env fs rev o) {e : Error} (he : o.result = .error e) :
    s.discover fs rev = .error e ∨ ∃ commit scan, s.discover fs rev = .ok (commit, scan) ∧
      ((∃ i ≤ scan.files.length, s.interruption? env i = some e) ∨
        ∀ records : List Record, records.map (·.path) = scan.files →
          (persist fs (s.artifacts env fs commit scan.files records)).2 = some e) := by
  cases h with
  | undiscovered hd => cases he; exact .inl hd
  | halted hd hi =>
    cases he
    obtain ⟨i,hmem,hi⟩ := List.exists_of_findSome?_eq_some hi
    exact .inr ⟨_,_,hd,.inl ⟨i,Nat.le_of_lt (List.mem_range.mp hmem),hi⟩⟩
  | interrupted hd hnone hi => cases he; exact .inr ⟨_,_,hd,.inl ⟨_,Nat.le_refl _,hi⟩⟩
  | unwritten hd hnone hp =>
    cases he
    refine .inr ⟨_,_,hd,.inr fun records hpaths => ?_⟩
    refine .trans ?_ (congrArg Prod.snd hp)
    refine persist_alike ?_ rfl
    have hsame := congrArg (List.map s.layout.recordFile)
      (hpaths.trans (s.recordsOf_paths env fs _).symm)
    simp only [List.map_map] at hsame
    simp only [artifacts, Layout.artifacts, List.map_append, List.map_map]
    exact congrArg (· ++ _) hsame
  | written hd hnone hp => simp at he

private theorem discovered (h : Course s env fs rev o) (hp : .persisting ∈ o.phases) :
    ∃ commit scan, s.discover fs rev = .ok (commit, scan) := by
  cases h with
  | unwritten hd hnone he => exact ⟨_,_,hd⟩
  | written hd hnone he => exact ⟨_,_,hd⟩
  | _ => simp at hp

private theorem isChain_append (h : Course s env fs rev o) {p : Phase} {later : List Phase}
    (hp : p.next = []) (hlater : ∀ q, q.next = [] → (q :: later).IsChain Phase.Follows) :
    (p :: (o.phases ++ later)).IsChain Phase.Follows := by
  have hdone := hlater .done rfl
  have hfailed := hlater .failed rfl
  cases h <;> simp_all [Phase.Follows, Phase.next]

end Course

end Snapshot

/-- What holds of an answered call, whatever the calls before it came to. An error has nothing to do
with what the sources hold: other records of them would have met with the same one. Once writing has
begun, nothing that the world shows later changes the outcome. -/
structure Answered.Lawful (s : Snapshot) (a : Answered) : Prop where
  begins : a.outcome.phases.head? = some .discovering
  follows : a.outcome.phases.IsChain (fun p q => q ∈ p.next)
  done_iff : (∃ report, a.outcome.result = .ok report) ↔ a.outcome.phase = .done
  failed_iff : (∃ e, a.outcome.result = .error e) ↔ a.outcome.phase = .failed
  early : ∀ e, a.outcome.result = .error e → e.precedesWriting = true →
    .persisting ∉ a.outcome.phases ∧ a.outcome.files = a.before
  blameless : ∀ e, a.outcome.result = .error e →
    (a.call.commits.isRepository = false ∨ a.call.commits.commit a.call.rev = .error e ∨
      a.before.isDir s.root = false) ∨
    ∃ commit scan, (s.during a.call).discover a.before a.call.rev = .ok (commit, scan) ∧
      ((∃ i ≤ scan.files.length, s.interruption? a.call.env i = some e) ∨
        ∀ records : List Record, records.map (·.path) = scan.files →
          (Snapshot.persist a.before
            (s.artifacts a.call.env a.before commit scan.files records)).2 = some e)
  settled : .persisting ∈ a.outcome.phases →
    ∃ commit scan, (s.during a.call).discover a.before a.call.rev = .ok (commit, scan) ∧
      ∀ env : Environment, env.clock = a.call.env.clock →
        (∀ i ≤ scan.files.length, env.cancelled i = a.call.env.cancelled i ∧
          env.elapsed i = a.call.env.elapsed i) →
        (s.during a.call).run env a.before a.call.rev = a.outcome

private theorem lawful_run (s : Snapshot) (c : Call) (fs : FileSystem) :
    (Answered.mk c fs ((s.during c).run c.env fs c.rev)).Lawful s := by
  have h := Snapshot.run_course (s.during c) c.env fs c.rev
  refine ⟨h.phases_eq.1,h.phases_eq.2,h.result_iff.1,h.result_iff.2,fun e => h.early,?_,?_⟩
  · intro e he
    rcases h.blameless he with hd | hlate
    · exact .inl (Snapshot.discover_error hd)
    · exact .inr hlate
  · intro hp
    obtain ⟨commit,scan,hd⟩ := h.discovered hp
    exact ⟨commit,scan,hd,fun env hclock hagree => Snapshot.run_of_agree hd hclock hagree⟩

/-- Phases follow one another as they may over any number of calls, and every call is lawful. -/
theorem Snapshot.answer_keeps_to_phases (s : Snapshot) (fs : FileSystem) (calls : List Call) :
    (.idle :: (s.answer fs calls).flatMap (·.outcome.phases)).IsChain Phase.Follows ∧
      ∀ a ∈ s.answer fs calls, a.Lawful s := by
  suffices h : ∀ p : Phase, p.next = [] →
      (p :: (s.answer fs calls).flatMap (·.outcome.phases)).IsChain Phase.Follows ∧
        ∀ a ∈ s.answer fs calls, a.Lawful s from h .idle rfl
  induction calls generalizing fs with
  | nil => simp [Snapshot.answer]
  | cons c rest ih =>
    intro p hp
    have hrun := Snapshot.run_course (s.during c) c.env (c.edit fs) c.rev
    have ih := ih ((s.during c).run c.env (c.edit fs) c.rev).files
    simp only [Snapshot.answer, List.flatMap_cons, List.mem_cons, forall_eq_or_imp]
    exact ⟨hrun.isChain_append hp fun q hq => (ih q hq).1,lawful_run s c (c.edit fs),(ih p hp).2⟩

end DocSnapshot
