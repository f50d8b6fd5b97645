import DocSnapshot.CommitSource
import DocSnapshot.Discovery
import DocSnapshot.Hook
import DocSnapshot.Manifest

/-! What is known about a project. Whatever goes wrong on the way is reported and stops nothing. -/
namespace DocSnapshot

structure Status where
  initialized : Bool
  config : Option Config
  configError : Option String
  projectName : String
  repository : Bool
  branch : Option String
  head : Option Commit
  gitError : Option String
  files : List String
  outputDirExists : Bool
  latest : Option Manifest
  manifestError : Option String
  structurePresent : Bool
  hook : Option Hook.State
  deriving DecidableEq, Repr

namespace Status

private def failureText? {α : Type} : Except Error α → Option String
  | .ok _ => none
  | .error e => some e.message

/-- Looks at the project in a directory. A configuration that is missing or cannot be read is
replaced by the standard one. -/
def collect (processors : Nat) (fs : FileSystem) (root : String) (commits : CommitSource) :
    Status :=
  let initialized := Config.isPresent fs root
  let loaded : Option (Except Error Config) :=
    if initialized then some (Config.loadFrom processors fs (Config.path root)) else none
  let found := loaded.bind Except.toOption
  let config := found.getD (Config.forProject processors fs root)
  let repository := commits.isRepository
  let head := commits.commit none
  let layout := Layout.ofConfig config root
  let latest := layout.loadManifest fs
  { initialized := initialized
    config := found
    configError := loaded.bind failureText?
    projectName := config.nameFor fs root
    repository := repository
    branch := if repository then commits.branch.toOption else none
    head := if repository then head.toOption else none
    gitError := if repository then failureText? head else none
    files := match Scan.run fs root (.load fs root config.ignoreFile) false with
      | .ok scan => scan.files
      | .error _ => []
    outputDirExists := fs.isDir layout.outputDir
    latest := latest.toOption.join
    manifestError := failureText? latest
    structurePresent := fs.isFile layout.structureFile
    hook := if repository then commits.hooksDir.toOption.map (Hook.State.ofDir fs) else none }

def isCurrent (s : Status) : Bool :=
  match s.latest, s.head with
  | some latest, some head => latest.commitHash = head.hash
  | _, _ => false

end Status

end DocSnapshot
