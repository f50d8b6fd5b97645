import Mathlib.Logic.Relation
import DocSnapshot.Proofs.Snapshot.Phases

/-! Extraction as it happens on threads. One loop asks for permits and looks for interruptions,
threads take up the jobs and end them in any order, and the results are collected once all jobs are
handed out. Whatever the order, the outcome is that of going through the sources one by one. -/
namespace DocSnapshot

/-- A pool in detail. The loop may hold a permit for the job it has come to; jobs that are handed
out hold theirs until they end. -/
structure Crew (α β : Type) where
  permits : Nat
  waiting : List (Nat × α)
  admitted : Option (Nat × α)
  queued : List (Nat × α)
  active : List (Nat × α)
  ended : List (Nat × β)
  collected : List (Nat × β)

namespace Crew
open Pool (done)

variable {α β ε : Type}

def ofJobs (permits : Nat) (jobs : List α) : Crew α β :=
  ⟨permits, jobs.zipIdx.map fun (job, i) => (i, job), none, [], [], [], []⟩

def holders (c : Crew α β) : List (Nat × α) := c.admitted.toList ++ c.queued ++ c.active

/-- What can happen next: the loop is granted a permit, it hands out the job if nothing calls the
work off, a thread takes up any job that was handed out, any job ends and gives its permit back, or
the result of any job that has ended is collected. -/
inductive Step (work : Nat → α → β) (stop : Nat → Option ε) (c : Crew α β) : Crew α β → Prop
  | grant {job : Nat × α} {rest : List (Nat × α)} (hwait : c.waiting = job :: rest)
      (hfree : c.admitted = none) (hpermit : c.holders.length < c.permits) :
      Step work stop c { c with waiting := rest, admitted := some job }
  | spawn {job : Nat × α} (hjob : c.admitted = some job) (hon : stop job.1 = none) :
      Step work stop c { c with admitted := none, queued := c.queued ++ [job] }
  | take {before after : List (Nat × α)} {job : Nat × α}
      (hjob : c.queued = before ++ job :: after) :
      Step work stop c { c with queued := before ++ after, active := c.active ++ [job] }
  | finish {before after : List (Nat × α)} {job : Nat × α}
      (hjob : c.active = before ++ job :: after) :
      Step work stop c { c with active := before ++ after, ended := c.ended ++ [done work job] }
  | collect {before after : List (Nat × β)} {result : Nat × β} (hwait : c.waiting = [])
      (hfree : c.admitted = none) (hresult : c.ended = before ++ result :: after) :
      Step work stop c { c with ended := before ++ after, collected := c.collected ++ [result] }

def Reaches (work : Nat → α → β) (stop : Nat → Option ε) : Crew α β → Crew α β → Prop :=
  Relation.ReflTransGen (Step work stop)

/-- The pool that a crew amounts to: a job that is not handed out still waits, and one that is
handed out runs. -/
def pool (c : Crew α β) : Pool α β :=
  ⟨c.permits, c.admitted.toList ++ c.waiting, c.queued ++ c.active, c.collected ++ c.ended⟩

/-- How the work ends: it is called off before the job that the loop has come to, or all results are
collected. -/
inductive Ends (stop : Nat → Option ε) (c : Crew α β) : Except ε (List β) → Prop
  | calledOff {job : Nat × α} {e : ε} (hjob : c.admitted = some job) (he : stop job.1 = some e) :
      Ends stop c (.error e)
  | complete (hwait : c.waiting = []) (hfree : c.admitted = none) (hqueued : c.queued = [])
      (hactive : c.active = []) (hended : c.ended = []) : Ends stop c (.ok c.pool.results)

def remaining (c : Crew α β) : Nat :=
  5 * c.waiting.length + 4 * c.admitted.toList.length + 3 * c.queued.length +
    2 * c.active.length + c.ended.length

/-- What holds of a crew at every moment. No job that the work could have been called off before is
handed out. -/
structure Steady (work : Nat → α → β) (stop : Nat → Option ε) (jobs : List (Nat × α))
    (c : Crew α β) : Prop where
  sound : c.pool.Sound work jobs
  bounded : c.holders.length ≤ c.permits
  passed : jobs.findSome? (fun job => stop job.1) =
    c.pool.waiting.findSome? (fun job => stop job.1)

variable {work : Nat → α → β} {stop : Nat → Option ε} {jobs : List (Nat × α)} {c d : Crew α β}

theorem Step.remaining (h : Step work stop c d) : d.remaining + 1 = c.remaining := by
  cases h with
  | grant hwait hfree hpermit => simp [Crew.remaining, hwait, hfree]; omega
  | spawn hjob hon => simp [Crew.remaining, hjob]; omega
  | take hjob => simp [Crew.remaining, hjob]; omega
  | finish hjob => simp [Crew.remaining, hjob]; omega
  | collect hwait hfree hresult => simp [Crew.remaining, hresult]; omega

theorem Step.permits (h : Step work stop c d) : d.permits = c.permits := by
  cases h <;> rfl

private theorem Steady.rearranged (h : c.Steady work stop jobs)
    (hwait : d.pool.waiting = c.pool.waiting) (hbound : d.holders.length ≤ d.permits)
    (hperm : (d.pool.running.map (done work) ++ d.pool.finished).Perm
      (c.pool.running.map (done work) ++ c.pool.finished)) : d.Steady work stop jobs := by
  obtain ⟨started,hjobs,hp⟩ := h.sound.covered
  refine ⟨⟨h.sound.distinct,⟨started,hwait ▸ hjobs,hperm.trans hp⟩,?_⟩,hbound,hwait ▸ h.passed⟩
  simp only [holders, pool, List.length_append] at hbound ⊢
  omega

private theorem Steady.spawn {job : Nat × α} (h : c.Steady work stop jobs)
    (hjob : c.admitted = some job) (hon : stop job.1 = none) :
    Steady work stop jobs { c with admitted := none, queued := c.queued ++ [job] } := by
  have hbound := h.bounded
  simp only [holders, hjob, Option.toList_some, List.length_append, List.length_cons,
    List.length_nil] at hbound
  have hstart : c.pool.after? work .start = some { c.pool with
      waiting := c.waiting, running := c.pool.running ++ [job] } := by
    have hfree : c.queued.length + c.active.length < c.permits := by omega
    simp [Pool.after?, Pool.start?, pool, hjob, hfree]
  obtain ⟨started,hjobs,hp⟩ := (h.sound.after hstart).1.covered
  refine ⟨⟨h.sound.distinct,⟨started,hjobs,.trans ?_ hp⟩,?_⟩,?_,?_⟩
  · simp only [pool, List.append_assoc]
    exact ((List.perm_append_comm.append_left c.queued).map (done work)).append_right _
  · simp only [pool, List.length_append, List.length_cons, List.length_nil]
    omega
  · simp only [holders, Option.toList_none, List.length_append, List.length_cons, List.length_nil]
    omega
  · simpa [pool, hjob, hon] using h.passed

/-- A step keeps a crew steady. -/
theorem Steady.step (h : c.Steady work stop jobs) (hstep : Step work stop c d) :
    d.Steady work stop jobs := by
  have hbound := h.bounded
  cases hstep with
  | @grant job rest hwait hfree hpermit =>
    refine h.rearranged (by simp [pool, hwait, hfree]) ?_ (.refl _)
    simp only [holders, hfree, Option.toList_none, Option.toList_some, List.length_append,
      List.length_cons, List.length_nil] at hpermit ⊢
    omega
  | @spawn job hjob hon => exact h.spawn hjob hon
  | @take before after job hjob =>
    refine h.rearranged rfl ?_ ?_
    · simp only [holders, hjob, List.length_append, List.length_cons, List.length_nil] at hbound ⊢
      omega
    · refine .append_right _ (.map _ ?_)
      simp only [pool, hjob, List.append_assoc, List.cons_append]
      refine .append_left before (.trans ?_ List.perm_middle)
      exact .append_left after List.perm_append_comm
  | @finish before after job hjob =>
    refine h.rearranged rfl ?_ ?_
    · simp only [holders, hjob, List.length_append, List.length_cons] at hbound ⊢
      omega
    · simp only [pool, hjob, List.map_append, List.map_cons, List.append_assoc, List.cons_append]
      refine .append_left _ (.append_left _ ?_)
      have hlast := List.perm_append_singleton (done work job)
        (after.map (done work) ++ (c.collected ++ c.ended))
      simpa only [List.append_assoc] using hlast
  | @collect before after result hwait hfree hresult =>
    refine h.rearranged rfl hbound (.append_left _ ?_)
    simp only [pool, hresult, List.append_assoc, List.singleton_append]
    exact .append_left _ List.perm_middle.symm

/-- A crew that has a permit at all can go on, unless it is at its end. -/
theorem ends_or_step (work : Nat → α → β) (stop : Nat → Option ε) (hpos : 0 < c.permits) :
    (∃ r, Ends stop c r) ∨ ∃ d, Step work stop c d := by
  cases hadmitted : c.admitted with
  | some job =>
    cases hstop : stop job.1 with
    | some e => exact .inl ⟨_,.calledOff hadmitted hstop⟩
    | none => exact .inr ⟨_,.spawn hadmitted hstop⟩
  | none =>
    cases hactive : c.active with
    | cons job rest => exact .inr ⟨_,.finish (hactive.trans (List.nil_append _).symm)⟩
    | nil =>
      cases hqueued : c.queued with
      | cons job rest => exact .inr ⟨_,.take (hqueued.trans (List.nil_append _).symm)⟩
      | nil =>
        cases hwait : c.waiting with
        | cons job rest =>
          have hidle : c.holders.length < c.permits := by
            simpa [holders, hadmitted, hactive, hqueued] using hpos
          exact .inr ⟨_,.grant hwait hadmitted hidle⟩
        | nil =>
          cases hended : c.ended with
          | cons result rest =>
            exact .inr ⟨_,.collect hwait hadmitted (hended.trans (List.nil_append _).symm)⟩
          | nil => exact .inl ⟨_,.complete hwait hadmitted hqueued hactive hended⟩

/-- However a crew comes to its end, the outcome is the same. -/
theorem Steady.outcome (h : c.Steady work stop jobs) (hsorted : jobs.Pairwise (·.1 < ·.1))
    {r : Except ε (List β)} (hends : Ends stop c r) :
    r = match jobs.findSome? (fun job => stop job.1) with
      | some e => .error e
      | none => .ok (jobs.map fun job => work job.1 job.2) := by
  rw [h.passed]
  cases hends with
  | calledOff hjob he => simp [pool, hjob, he]
  | complete hwait hfree hqueued hactive hended =>
    have hover : c.pool.remaining = 0 := by
      simp [Pool.remaining, pool, hwait, hfree, hqueued, hactive]
    rw [Pool.results_of_remaining h.sound hsorted hover]
    simp [pool, hwait, hfree]

theorem steady_ofJobs (permits : Nat) (work : Nat → α → β) (stop : Nat → Option ε)
    (jobs : List α) :
    (ofJobs permits jobs).Steady work stop (jobs.zipIdx.map fun (job, i) => (i, job)) :=
  ⟨Pool.sound_ofJobs permits work jobs,Nat.zero_le _,rfl⟩

theorem Steady.reaches (h : c.Steady work stop jobs) (hreach : Reaches work stop c d) :
    d.Steady work stop jobs ∧ d.permits = c.permits := by
  induction hreach with
  | refl => exact ⟨h,rfl⟩
  | tail _ hstep ih => exact ⟨ih.1.step hstep,hstep.permits.trans ih.2⟩

/-- Every crew with a permit can be brought to an end. -/
theorem exists_ends (work : Nat → α → β) (stop : Nat → Option ε) (hpos : 0 < c.permits) :
    ∃ d r, Reaches work stop c d ∧ Ends stop d r := by
  induction hn : c.remaining using Nat.strong_induction_on generalizing c with
  | _ n ih =>
    obtain ⟨r,hr⟩ | ⟨d,hd⟩ := ends_or_step work stop hpos
    · exact ⟨c,r,.refl,hr⟩
    · have hrem := hd.remaining
      obtain ⟨e,r,hreach,hr⟩ := ih d.remaining (by omega) (hd.permits ▸ hpos) rfl
      exact ⟨e,r,.head hd hreach,hr⟩

/-- No crew goes on for more steps than it is away from its end. -/
theorem exists_not_step (work : Nat → α → β) (stop : Nat → Option ε) (f : Nat → Crew α β) :
    ∃ n ≤ (f 0).remaining, ¬Step work stop (f n) (f (n + 1)) := by
  by_contra hall
  push Not at hall
  have hcount : ∀ n ≤ (f 0).remaining + 1, (f n).remaining + n = (f 0).remaining := by
    intro n
    induction n with
    | zero => simp
    | succ n ih =>
      intro hn
      have hstep := (hall n (by omega)).remaining
      have := ih (by omega)
      omega
  have := hcount ((f 0).remaining + 1) (Nat.le_refl _)
  omega

end Crew

namespace Snapshot

/-- Why a run is interrupted. -/
theorem interruption?_cases {s : Snapshot} {env : Environment} {moment : Nat} {e : Error}
    (h : s.interruption? env moment = some e) :
    e = .cancelled ∨ ∃ limit, s.deadline = some limit ∧ e = .deadlineExceeded limit := by
  rw [interruption?] at h
  split at h
  · exact .inl (Option.some.inj h).symm
  · split at h
    · next limit hlimit =>
      split at h
      · exact .inr ⟨limit,hlimit,(Option.some.inj h).symm⟩
      · cases h
    · cases h

private theorem first_of_findSome?_range {ε : Type} {stop : Nat → Option ε} {n : Nat} {e : ε}
    (h : (List.range n).findSome? stop = some e) :
    ∃ i < n, stop i = some e ∧ ∀ j < i, stop j = none := by
  obtain ⟨before,i,after,hrange,hstop,hnone⟩ := List.findSome?_eq_some_iff.mp h
  have hsorted := List.pairwise_lt_range (n := n)
  have hi : i ∈ List.range n := by simp [hrange]
  rw [hrange, List.pairwise_append, List.pairwise_cons] at hsorted
  refine ⟨i,List.mem_range.mp hi,hstop,fun j hj => hnone j ?_⟩
  have hmem : j ∈ before ++ i :: after := by
    rw [← hrange, List.mem_range]
    exact Nat.lt_trans hj (List.mem_range.mp hi)
  -- what comes behind `i` in the range is larger than `i`
  rcases List.mem_append.mp hmem with hbefore | hafter
  · exact hbefore
  · rcases List.mem_cons.mp hafter with rfl | hafter
    · omega
    · have := hsorted.2.1.1 j hafter
      omega

/-- Whatever the number of workers and the order in which permits are granted, jobs are taken up,
ended and collected: no more permits are held than there are workers, of whom there is one at least;
the work always comes to an end, and can do so from wherever it stands; and it ends as extraction
does, with an interruption that was seen before some source was handed out, or with the record of
each source in the order of the sources. -/
theorem extract_under_every_order (s : Snapshot) (env : Environment) (fs : FileSystem)
    (sources : List String) :
    let work := fun i source => Record.ofFile fs s.root source (env.clock i)
    let stop := s.interruption? env
    1 ≤ s.config.workers ∧
    (∀ c, Crew.Reaches work stop (Crew.ofJobs s.config.workers sources) c →
      c.holders.length ≤ s.config.workers ∧
      (∀ r, Crew.Ends stop c r → r = s.extract env fs sources) ∧
      ∃ d r, Crew.Reaches work stop c d ∧ Crew.Ends stop d r) ∧
    (∀ f : Nat → Crew String Record, f 0 = Crew.ofJobs s.config.workers sources →
      ∃ n ≤ 5 * sources.length, ¬Crew.Step work stop (f n) (f (n + 1))) ∧
    ((∃ i < sources.length, ∃ e, stop i = some e ∧ (∀ j < i, stop j = none) ∧
        (e = .cancelled ∨ ∃ limit, s.deadline = some limit ∧ e = .deadlineExceeded limit) ∧
        s.extract env fs sources = .error e) ∨
      ((∀ i < sources.length, stop i = none) ∧
        s.extract env fs sources = .ok (sources.zipIdx.map fun (source, i) => work i source))) := by
  intro work stop
  refine ⟨s.workers_pos,fun c hreach => ?_,fun f hf => ?_,?_⟩
  · have hstart := Crew.steady_ofJobs s.config.workers work stop sources
    obtain ⟨hsteady,hpermits⟩ := hstart.reaches hreach
    have hworkers : c.permits = s.config.workers := hpermits
    refine ⟨hworkers ▸ hsteady.bounded,fun r hr => ?_,?_⟩
    · have houtcome := hsteady.outcome (Pool.pairwise_numbered sources) hr
      rw [Pool.findSome?_numbered, List.map_map] at houtcome
      rw [houtcome, extract_eq]
      cases List.findSome? stop (List.range sources.length) <;> rfl
    · exact Crew.exists_ends work stop (hworkers ▸ s.workers_pos)
  · have hrem : (f 0).remaining = 5 * sources.length := by simp [hf, Crew.remaining, Crew.ofJobs]
    exact hrem ▸ Crew.exists_not_step work stop f
  · rw [extract_eq]
    cases hfirst : (List.range sources.length).findSome? (s.interruption? env) with
    | none =>
      rw [List.findSome?_eq_none_iff] at hfirst
      exact .inr ⟨fun i hi => hfirst i (List.mem_range.mpr hi),rfl⟩
    | some e =>
      obtain ⟨i,hi,hstop,hearlier⟩ := first_of_findSome?_range hfirst
      exact .inl ⟨i,hi,e,hstop,hearlier,interruption?_cases hstop,rfl⟩

end Snapshot

end DocSnapshot
