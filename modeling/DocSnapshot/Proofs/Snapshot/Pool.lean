import DocSnapshot.Snapshot.Pool

/-! Whatever the schedule, a pool does every job once, keeps to its permits, and gives the results
in the order of the jobs; it is called off exactly when some job is refused its start. -/
namespace DocSnapshot.Pool

variable {α β ε : Type}

def done (work : Nat → α → β) (job : Nat × α) : Nat × β := (job.1, work job.1 job.2)

def remaining (p : Pool α β) : Nat := 2 * p.waiting.length + p.running.length

/-- Every job waits, runs or has ended, once, and permits are kept to. -/
structure Sound (work : Nat → α → β) (jobs : List (Nat × α)) (p : Pool α β) : Prop where
  distinct : (jobs.map (·.1)).Nodup
  covered : ∃ started, jobs = started ++ p.waiting ∧
    (p.running.map (done work) ++ p.finished).Perm (started.map (done work))
  bounded : p.running.length ≤ p.permits

private theorem perm_of_find? {jobs : List (Nat × α)} {index : Nat} {job : Nat × α}
    (hd : (jobs.map (·.1)).Nodup) (h : jobs.find? (·.1 = index) = some job) :
    jobs.Perm (job :: jobs.filter (·.1 ≠ index)) := by
  induction jobs with
  | nil => simp at h
  | cons j rest ih =>
    simp only [List.map_cons, List.nodup_cons] at hd
    by_cases hj : j.1 = index
    · have he : j = job := by simpa [hj] using h
      have hrest : rest.filter (·.1 ≠ index) = rest := by
        refine List.filter_eq_self.mpr fun k hk => ?_
        have hne : k.1 ≠ j.1 := fun hkj => hd.1 (List.mem_map.mpr ⟨k,hk,hkj⟩)
        simpa [← hj] using hne
      rw [← he, List.filter_cons_of_neg (by simpa using hj), hrest]
    · have h : rest.find? (·.1 = index) = some job := by simpa [hj] using h
      have hp := (ih hd.2 h).cons j
      simpa [hj] using hp.trans (.swap job j _)

theorem Sound.running_distinct {work : Nat → α → β} {jobs : List (Nat × α)} {p : Pool α β}
    (h : p.Sound work jobs) : (p.running.map (·.1)).Nodup := by
  obtain ⟨started,hjobs,hp⟩ := h.covered
  have hstarted : (started.map (·.1)).Nodup := by
    have hd := h.distinct
    rw [hjobs, List.map_append] at hd
    exact (List.nodup_append.mp hd).1
  have hk := hp.map (·.1)
  rw [List.map_append, List.map_map, List.map_map] at hk
  have hn : (p.running.map (·.1) ++ p.finished.map (·.1)).Nodup := hk.nodup_iff.mpr hstarted
  exact (List.nodup_append.mp hn).1

/-- One event keeps the pool sound and brings it nearer to its end. -/
theorem Sound.after {work : Nat → α → β} {jobs : List (Nat × α)} {p q : Pool α β} {e : Event}
    (h : p.Sound work jobs) (he : p.after? work e = some q) :
    q.Sound work jobs ∧ q.permits = p.permits ∧ q.remaining + 1 = p.remaining ∧
      q.waiting = (if e = .start then p.waiting.tail else p.waiting) := by
  obtain ⟨started,hjobs,hp⟩ := h.covered
  cases e with
  | start =>
    simp only [after?, start?] at he
    split at he
    · simp at he
    · next job rest hw =>
      split at he
      · next hlt =>
        cases he
        refine ⟨⟨h.distinct,⟨started ++ [job],by simp [hjobs, hw],?_⟩,?_⟩,rfl,?_,by simp [hw]⟩
        · have hp := hp.append_right [done work job]
          rw [List.append_assoc] at hp
          simpa using ((List.perm_append_comm.append_left _).trans hp)
        · simpa using Nat.succ_le_of_lt hlt
        · simp only [remaining, hw, List.length_append, List.length_cons, List.length_nil]
          omega
      · simp at he
  | finish index =>
    simp only [after?, finish?] at he
    split at he
    · simp at he
    · next i job hf =>
      cases he
      have hr := perm_of_find? h.running_distinct hf
      have hlen := hr.length_eq
      rw [List.length_cons] at hlen
      refine ⟨⟨h.distinct,⟨started,hjobs,?_⟩,?_⟩,rfl,?_,by simp⟩
      · refine .trans ?_ hp
        have hr := (hr.map (done work)).append_right p.finished
        rw [List.map_cons, List.cons_append] at hr
        refine .trans ?_ hr.symm
        rw [← List.append_assoc]
        exact List.perm_append_comm.trans (by simp [done])
      · have := h.bounded
        dsimp only
        omega
      · simp only [remaining]
        omega

private theorem empty_of_remaining {p : Pool α β} (h : p.remaining = 0) :
    p.waiting = [] ∧ p.running = [] := by
  simp only [remaining] at h
  exact ⟨List.eq_nil_of_length_eq_zero (by omega),List.eq_nil_of_length_eq_zero (by omega)⟩

private theorem next?_isSome {work : Nat → α → β} {s : Schedule α β} {p : Pool α β} {e : Event}
    (h : p.next? work s = some e) : ∃ q, p.after? work e = some q := by
  have := List.find?_some h
  exact Option.isSome_iff_exists.mp this

private theorem remaining_of_next?_none {work : Nat → α → β} {s : Schedule α β} {p : Pool α β}
    (hpos : 0 < p.permits) (h : p.next? work s = none) : p.remaining = 0 := by
  have hno := List.find?_eq_none.mp h
  cases hr : p.running with
  | nil =>
    cases hw : p.waiting with
    | nil => simp [remaining, hr, hw]
    | cons job rest =>
      have := hno .start (by simp)
      simp [after?, start?, hw, hr, hpos] at this
  | cons job rest =>
    have := hno (.finish job.1) (by simp [hr])
    simp [after?, finish?, hr] at this

private theorem waiting_of_start {work : Nat → α → β} {p q : Pool α β}
    (h : p.after? work .start = some q) : ∃ job, p.waiting = job :: q.waiting := by
  simp only [after?, start?] at h
  split at h
  · simp at h
  · next job rest hw =>
    split at h
    · cases h
      exact ⟨job,hw⟩
    · simp at h

/-- Running a pool long enough ends it, unless a job is refused its start. -/
theorem Sound.runWithin {work : Nat → α → β} {jobs : List (Nat × α)} {p : Pool α β} {n : Nat}
    (h : p.Sound work jobs) (hpos : 0 < p.permits) (hn : p.remaining ≤ n)
    (stop : Nat → Option ε) (s : Schedule α β) :
    match p.waiting.findSome? (fun job => stop job.1) with
    | some e => Pool.runWithin work stop s n p = .error e
    | none => ∃ q, Pool.runWithin work stop s n p = .ok q ∧ q.Sound work jobs ∧
        q.remaining = 0 := by
  induction n generalizing p with
  | zero =>
    have hr := Nat.le_zero.mp hn
    rw [(empty_of_remaining hr).1]
    exact ⟨p,rfl,h,hr⟩
  | succ n ih =>
    rw [Pool.runWithin]
    cases hnext : p.next? work s with
    | none =>
      have hr := remaining_of_next?_none hpos hnext
      rw [(empty_of_remaining hr).1]
      exact ⟨p,rfl,h,hr⟩
    | some event =>
      obtain ⟨q,hq⟩ := next?_isSome hnext
      obtain ⟨hsound,hpermits,hrem,hwait⟩ := h.after hq
      have ih := ih hsound (hpermits ▸ hpos) (by omega)
      simp only [hq, Option.getD_some]
      by_cases hs : event = .start
      · subst hs
        obtain ⟨job,hjob⟩ := waiting_of_start hq
        simp only [↓reduceIte, refusal?, hjob, List.head?_cons, Option.bind_some,
          List.findSome?_cons]
        cases hstop : stop job.1 with
        | some e => rfl
        | none => exact ih
      · simp only [hs, ↓reduceIte] at hwait ⊢
        rw [← hwait]
        exact ih

theorem sound_ofJobs (permits : Nat) (work : Nat → α → β) (jobs : List α) :
    (ofJobs permits jobs).Sound work (jobs.zipIdx.map fun (job, i) => (i, job)) where
  distinct := by
    rw [List.map_map]
    exact (List.zipIdx_map_snd 0 jobs) ▸ List.nodup_range'
  covered := ⟨[],by simp [ofJobs],by simp [ofJobs]⟩
  bounded := Nat.zero_le _

/-- A pool at its end has the result of each job, in the order of the jobs. -/
theorem results_of_remaining {work : Nat → α → β} {jobs : List (Nat × α)} {p : Pool α β}
    (h : p.Sound work jobs) (hsorted : jobs.Pairwise (·.1 < ·.1)) (hr : p.remaining = 0) :
    p.results = jobs.map fun job => work job.1 job.2 := by
  obtain ⟨started,hjobs,hp⟩ := h.covered
  obtain ⟨hwait,hrun⟩ := empty_of_remaining hr
  rw [hrun, List.map_nil, List.nil_append] at hp
  rw [hwait, List.append_nil] at hjobs
  subst hjobs
  have hperm := (List.mergeSort_perm p.finished (·.1 ≤ ·.1)).trans hp
  have hdone : (jobs.map (done work)).Pairwise (·.1 < ·.1) := List.pairwise_map.mpr hsorted
  have hne : (p.finished.mergeSort (·.1 ≤ ·.1)).Pairwise (·.1 ≠ ·.1) :=
    (hperm.pairwise_iff Ne.symm).mpr (hdone.imp Nat.ne_of_lt)
  have hle : (p.finished.mergeSort (·.1 ≤ ·.1)).Pairwise
      (fun a b => decide (a.1 ≤ b.1) = true) :=
    List.pairwise_mergeSort (fun _ _ _ => by simpa using Nat.le_trans)
      (fun a b => by simpa using Nat.le_total a.1 b.1) p.finished
  have hlt : (p.finished.mergeSort (·.1 ≤ ·.1)).Pairwise (·.1 < ·.1) :=
    hle.imp₂ (fun _ _ hab hne => Nat.lt_of_le_of_ne (by simpa using hab) hne) hne
  have heq := hperm.eq_of_pairwise (fun _ _ _ _ hab hba => (Nat.lt_asymm hab hba).elim) hlt hdone
  rw [results, heq, List.map_map]
  rfl

theorem findSome?_numbered (stop : Nat → Option ε) (jobs : List α) :
    (jobs.zipIdx.map fun (job, i) => (i, job)).findSome? (fun job => stop job.1) =
      (List.range jobs.length).findSome? stop := by
  rw [List.range_eq_range', ← List.zipIdx_map_snd, List.findSome?_map, List.findSome?_map]
  rfl

theorem pairwise_numbered (jobs : List α) :
    (jobs.zipIdx.map fun (job, i) => (i, job)).Pairwise (·.1 < ·.1) := by
  have hlt := List.pairwise_lt_range' (s := 0) (n := jobs.length)
  rw [← List.zipIdx_map_snd] at hlt
  exact List.pairwise_map.mpr (List.pairwise_map.mp hlt)

/-- What doing all jobs comes to, whatever the schedule: the results in order, or the reason why the
first job that is refused must not start. -/
theorem run_eq {permits : Nat} (hpos : 0 < permits) (work : Nat → α → β) (stop : Nat → Option ε)
    (s : Schedule α β) (jobs : List α) :
    run permits work stop s jobs =
      match (List.range jobs.length).findSome? stop with
      | some e => .error e
      | none => .ok (jobs.zipIdx.map fun (job, i) => work i job) := by
  have hremaining : (ofJobs (β := β) permits jobs).remaining ≤ 2 * jobs.length := by
    simp [remaining, ofJobs]
  have h := (sound_ofJobs permits work jobs).runWithin hpos hremaining stop s
  have hwaiting : (ofJobs (β := β) permits jobs).waiting.findSome? (fun job => stop job.1) =
      (List.range jobs.length).findSome? stop := findSome?_numbered stop jobs
  rw [hwaiting] at h
  rw [run]
  cases hstop : (List.range jobs.length).findSome? stop with
  | some e =>
    rw [hstop] at h
    rw [h]
    rfl
  | none =>
    rw [hstop] at h
    obtain ⟨q,hq,hsound,hr⟩ := h
    rw [hq, Except.map, results_of_remaining hsound (pairwise_numbered jobs) hr, List.map_map]
    rfl

end DocSnapshot.Pool
