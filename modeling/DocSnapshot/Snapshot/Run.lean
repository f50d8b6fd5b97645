import DocSnapshot.CommitSource
import DocSnapshot.Discovery
import DocSnapshot.Manifest
import DocSnapshot.Record.Extraction
import DocSnapshot.Snapshot.Phase
import DocSnapshot.Snapshot.Pool

/-! One run over a project. Every source is extracted before anything is written, and the manifest
is written last. A source that cannot be read gets an error record and does not stop the run. -/
namespace DocSnapshot

def Record.ofFile (fs : FileSystem) (root source : String) (time : Timestamp) : Record :=
  { path := source
    body := match fs.read (Path.join root source) with
      | .ok bytes => .ofBytes bytes
      | .error e => .failed ("failed to read file: " ++ e.message)
    generatedAt := time }

/-- What the outside world does during a run. Interruptions are looked for at numbered moments: one
before each source, and one when all are extracted. `clock` tells the time of each record and, at
the last moment, that of the structure map. -/
structure Environment where
  cancelled : Nat → Bool
  elapsed : Nat → Duration
  clock : Nat → Timestamp
  schedule : Pool.Schedule String Record

/-- What to make a snapshot of. -/
structure Snapshot where
  root : String
  config : Config
  commits : CommitSource
  deadline : Option Duration

structure Report where
  commit : Commit
  documentedFiles : List String
  failedFiles : List String
  ignoredCount : Nat
  outputDir : String
  deriving DecidableEq, Repr

structure Outcome where
  phases : List Phase
  files : FileSystem
  result : Except Error Report

def Outcome.phase (o : Outcome) : Phase := o.phases.getLast?.getD .idle

namespace Snapshot

def ofConfig (root : String) (config : Config) (commits : CommitSource) : Snapshot :=
  ⟨root, config, commits, config.deadline⟩

def layout (s : Snapshot) : Layout := .ofConfig s.config s.root

/-- Why a run has to stop at a moment. A run that is cancelled and late counts as cancelled. -/
def interruption? (s : Snapshot) (env : Environment) (moment : Nat) : Option Error :=
  if env.cancelled moment then some .cancelled
  else match s.deadline with
    | some limit => if limit.nanos ≤ (env.elapsed moment).nanos then some (.deadlineExceeded limit)
      else none
    | none => none

def discover (s : Snapshot) (fs : FileSystem) (rev : Option String) :
    Except Error (Commit × Scan) := do
  if !s.commits.isRepository then throw (.notARepository s.root)
  let commit ← s.commits.commit rev
  match Scan.run fs s.root (.load fs s.root s.config.ignoreFile) false with
  | .ok scan => return (commit, scan)
  | .error e => throw (.discovery e)

def extract (s : Snapshot) (env : Environment) (fs : FileSystem) (sources : List String) :
    Except Error (List Record) :=
  Pool.run s.config.workers (fun i source => Record.ofFile fs s.root source (env.clock i))
    (s.interruption? env) env.schedule sources

def artifacts (s : Snapshot) (env : Environment) (fs : FileSystem) (commit : Commit)
    (sources : List String) (records : List Record) : List Artifact :=
  s.layout.artifacts records
    { projectName := s.config.nameFor fs s.root
      generatedAt := env.clock sources.length
      commitHash := commit.hash
      structureMap := .build sources }
    (.ofCommit commit sources)

def persist (fs : FileSystem) : List Artifact → FileSystem × Option Error
  | [] => (fs, none)
  | a :: rest =>
    match a.save fs with
    | (fs, none) => persist fs rest
    | (fs, some e) => (fs, some (.persist a.path e))

def report (s : Snapshot) (commit : Commit) (scan : Scan) (records : List Record) : Report :=
  { commit := commit
    documentedFiles := (Manifest.ofCommit commit scan.files).documentedFiles
    failedFiles := (records.filter (·.body.isError)).map (·.path)
    ignoredCount := scan.ignoredCount
    outputDir := s.layout.outputDir }

def run (s : Snapshot) (env : Environment) (fs : FileSystem) (rev : Option String) : Outcome :=
  match s.discover fs rev with
  | .error e => ⟨[.discovering, .failed], fs, .error e⟩
  | .ok (commit, scan) =>
    match s.extract env fs scan.files with
    | .error e => ⟨[.discovering, .extracting, .failed], fs, .error e⟩
    | .ok records =>
      match s.interruption? env scan.files.length with
      | some e => ⟨[.discovering, .extracting, .indexing, .failed], fs, .error e⟩
      | none =>
        match persist fs (s.artifacts env fs commit scan.files records) with
        | (fs, some e) =>
          ⟨[.discovering, .extracting, .indexing, .persisting, .failed], fs, .error e⟩
        | (fs, none) =>
          ⟨[.discovering, .extracting, .indexing, .persisting, .done], fs,
            .ok (s.report commit scan records)⟩

end Snapshot

end DocSnapshot
