import DocSnapshot.FileSystem.Basic

/-! Files written so that a reader never sees half of one: a temporary file is filled beside the
target and then moved over it. -/
namespace DocSnapshot

/-- One change to the file system. -/
inductive FileStep where
  | makeDirs (path : String)
  | write (path : String) (bytes : List UInt8)
  | rename (source target : String)
  deriving DecidableEq, Repr

namespace FileStep

/-- Makes a change. A failed write or move changes nothing. -/
def apply (fs : FileSystem) : FileStep → FileSystem × Option IoError
  | .makeDirs path => fs.makeDirs path
  | .write path bytes =>
    match fs.write path bytes with
    | .ok fs => (fs, none)
    | .error e => (fs, some e)
  | .rename source target =>
    match fs.rename source target with
    | .ok fs => (fs, none)
    | .error e => (fs, some e)

def applyAll (fs : FileSystem) : List FileStep → FileSystem × Option IoError
  | [] => (fs, none)
  | s :: rest =>
    match s.apply fs with
    | (fs, none) => applyAll fs rest
    | (fs, some e) => (fs, some e)

end FileStep

structure Artifact where
  path : String
  content : String
  deriving DecidableEq, Repr

namespace Artifact

def tempPath (path : String) : String :=
  Path.withFileName path ("." ++ (Path.fileName? path).getD "artifact" ++ ".tmp")

def steps (a : Artifact) : List FileStep :=
  (match Path.parent? a.path with
    | some dir => [.makeDirs dir]
    | none => []) ++
  [.write (tempPath a.path) (Text.Utf8.encode a.content), .rename (tempPath a.path) a.path]

def save (fs : FileSystem) (a : Artifact) : FileSystem × Option IoError :=
  FileStep.applyAll fs a.steps

end Artifact

end DocSnapshot
