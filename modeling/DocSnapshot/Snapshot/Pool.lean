/-! Jobs spread over a bounded number of workers. They may end in any order; each carries its place
in the list, so that the results can be put back in order. -/
namespace DocSnapshot

/-- Jobs that wait, jobs that hold a permit, and results in the order in which the jobs ended. -/
structure Pool (α β : Type) where
  permits : Nat
  waiting : List (Nat × α)
  running : List (Nat × α)
  finished : List (Nat × β)
  deriving Repr

namespace Pool

variable {α β ε : Type}

/-- What happens in a pool: the next job takes a permit, or a running one ends and gives its permit
back. -/
inductive Event where
  | start
  | finish (index : Nat)
  deriving DecidableEq, Repr

abbrev Schedule (α β : Type) := Pool α β → Event

def ofJobs (permits : Nat) (jobs : List α) : Pool α β :=
  { permits := permits
    waiting := jobs.zipIdx.map fun (job, i) => (i, job)
    running := []
    finished := [] }

def start? (p : Pool α β) : Option (Pool α β) :=
  match p.waiting with
  | [] => none
  | job :: rest =>
    if p.running.length < p.permits then
      some { p with waiting := rest, running := p.running ++ [job] }
    else none

def finish? (work : Nat → α → β) (index : Nat) (p : Pool α β) : Option (Pool α β) :=
  match p.running.find? (·.1 = index) with
  | none => none
  | some (i, job) =>
    some { p with
      running := p.running.filter (·.1 ≠ index), finished := p.finished ++ [(i, work i job)] }

def after? (work : Nat → α → β) (p : Pool α β) : Event → Option (Pool α β)
  | .start => p.start?
  | .finish index => p.finish? work index

/-- The event that comes next. Where the schedule asks for one that cannot happen, the next job
starts, and if that cannot be, the first running job ends. A pool that is done has no next event. -/
def next? (work : Nat → α → β) (s : Schedule α β) (p : Pool α β) : Option Event :=
  ([s p, .start] ++ (p.running.head?.map fun job => Event.finish job.1).toList).find? fun e =>
    (p.after? work e).isSome

def results (p : Pool α β) : List β := (p.finished.mergeSort (·.1 ≤ ·.1)).map (·.2)

def refusal? (stop : Nat → Option ε) (p : Pool α β) : Option ε :=
  p.waiting.head?.bind fun job => stop job.1

/-- Runs a pool for at most `n` events. Each time a job is about to start, `stop` may call it all
off. -/
def runWithin (work : Nat → α → β) (stop : Nat → Option ε) (s : Schedule α β) :
    Nat → Pool α β → Except ε (Pool α β)
  | 0, p => .ok p
  | n + 1, p =>
    match p.next? work s with
    | none => .ok p
    | some event =>
      match if event = .start then p.refusal? stop else none with
      | some e => .error e
      | none => runWithin work stop s n ((p.after? work event).getD p)

/-- Does all jobs with some permits. Every job starts once and ends once. -/
def run (permits : Nat) (work : Nat → α → β) (stop : Nat → Option ε) (s : Schedule α β)
    (jobs : List α) : Except ε (List β) :=
  (runWithin work stop s (2 * jobs.length) (ofJobs permits jobs)).map results

end Pool

end DocSnapshot
