import DocSnapshot.CommitSource
import DocSnapshot.Config
import DocSnapshot.Hook

/-! Setting up a project: its configuration, its ignore file and its hook. What is in place already
is left alone. -/
namespace DocSnapshot

namespace Setup

def ignoreTemplate : String :=
  "# docShadow ignore file\n" ++
  "# Add patterns to exclude files from documentation generation\n" ++
  "\n" ++
  "# Common patterns\n" ++
  "__pycache__/\n" ++
  "*.pyc\n" ++
  "*.pyo\n" ++
  "*.pyd\n" ++
  ".Python\n" ++
  "build/\n" ++
  "dist/\n" ++
  "*.egg-info/\n" ++
  ".pytest_cache/\n" ++
  ".coverage\n" ++
  ".tox/\n" ++
  ".venv/\n" ++
  "venv/\n" ++
  "\n" ++
  "# Documentation\n" ++
  "docs/\n" ++
  "*.md\n"

inductive IgnoreFile where
  | existing
  | copied
  | template
  deriving DecidableEq, Repr

structure Report where
  configCreated : Bool
  ignoreFile : IgnoreFile
  hook : Hook.Status
  deriving DecidableEq, Repr

def ensureConfig (processors : Nat) (fs : FileSystem) (root : String) :
    Except Error (FileSystem × Config × Bool) := do
  if Config.isPresent fs root then
    return (fs, ← Config.loadFrom processors fs (Config.path root), false)
  else
    let config := Config.forProject processors fs root
    return (← config.save fs root, config, true)

/-- Sees to it that there is an ignore file: a copy of `.gitignore`, or else the template. -/
def ensureIgnoreFile (fs : FileSystem) (root file : String) :
    Except Error (FileSystem × IgnoreFile) :=
  let target := Path.join root file
  let gitIgnore := Path.join root ".gitignore"
  if fs.exists? target then .ok (fs, .existing)
  else if fs.isFile gitIgnore then
    match fs.copy gitIgnore target with
    | .ok fs => .ok (fs, .copied)
    | .error e => .error (.persist target e)
  else
    match fs.writeText target ignoreTemplate with
    | .ok fs => .ok (fs, .template)
    | .error e => .error (.persist target e)

def ensureHook (fs : FileSystem) (config : Config) (commits : CommitSource) :
    FileSystem × Except Error Hook.Status :=
  if config.postCommitHook then
    match commits.hooksDir with
    | .error e => (fs, .error e)
    | .ok dir => Hook.install fs dir
  else (fs, .ok .disabled)

/-- Sets up the project in a directory. What was done before a failure stays. -/
def run (processors : Nat) (fs : FileSystem) (root : String) (commits : CommitSource) :
    FileSystem × Except Error Report :=
  if !commits.isRepository then (fs, .error (.notARepository root))
  else match ensureConfig processors fs root with
    | .error e => (fs, .error e)
    | .ok (fs, config, created) =>
      match ensureIgnoreFile fs root config.ignoreFile with
      | .error e => (fs, .error e)
      | .ok (fs, ignoreFile) =>
        let (fs, hook) := ensureHook fs config commits
        (fs, hook.map fun status => ⟨created, ignoreFile, status⟩)

end Setup

end DocSnapshot
