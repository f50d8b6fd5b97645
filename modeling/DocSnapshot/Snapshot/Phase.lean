/-! The phases of a run. -/
namespace DocSnapshot

/-- How far a run has come. -/
inductive Phase where
  | idle
  | discovering
  | extracting
  | indexing
  | persisting
  | done
  | failed
  deriving DecidableEq, Repr

namespace Phase

def name : Phase → String
  | .idle => "idle"
  | .discovering => "discovering"
  | .extracting => "extracting"
  | .indexing => "indexing"
  | .persisting => "persisting"
  | .done => "done"
  | .failed => "failed"

def isTerminal : Phase → Bool
  | .done | .failed => true
  | _ => false

end Phase

end DocSnapshot
