import DocSnapshot.Duration
import DocSnapshot.FileSystem.Basic

/-! What can go wrong with a project. -/
namespace DocSnapshot

/-- Why sources cannot be found or read. -/
inductive DiscoveryError where
  | io (e : IoError)
  | parse (path message : String)
  | pattern (path message : String)
  | notFound (path : String)
  deriving DecidableEq, Repr

def DiscoveryError.message : DiscoveryError → String
  | .io e => "I/O error: " ++ e.message
  | .parse path message => "Parse error in " ++ path ++ ": " ++ message
  | .pattern path message => "Invalid ignore pattern in " ++ path ++ ": " ++ message
  | .notFound path => "Path not found: " ++ path

/-- Why an operation on a project is given up. -/
inductive Error where
  | notARepository (path : String)
  | commitNotFound (rev : String)
  | git (text : String)
  | notInitialized (path : String)
  | config (text : String)
  | io (e : IoError)
  | persist (path : String) (e : IoError)
  | serialization (text : String)
  | discovery (e : DiscoveryError)
  | task (text : String)
  | cancelled
  | deadlineExceeded (limit : Duration)
  deriving DecidableEq, Repr

namespace Error

def message : Error → String
  | .notARepository path => "Not a git repository: " ++ path
  | .commitNotFound rev => "Commit not found: " ++ rev
  | .git text => "Git error: " ++ text
  | .notInitialized path => "docShadow not initialized in " ++ path
  | .config text => "Configuration error: " ++ text
  | .io e => "IO error: " ++ e.message
  | .persist path e => "Failed to write " ++ path ++ ": " ++ e.message
  | .serialization text => "Serialization error: " ++ text
  | .discovery e => e.message
  | .task text => "Worker task failed: " ++ text
  | .cancelled => "Snapshot cancelled"
  | .deadlineExceeded limit => "Snapshot deadline of " ++ limit.render ++ " exceeded"

def cause? : Error → Option IoError
  | .io e | .persist _ e | .discovery (.io e) => some e
  | _ => none

def chain (e : Error) : List String := e.message :: (e.cause?.map IoError.message).toList

end Error

end DocSnapshot
