import DocSnapshot.Error
import DocSnapshot.Json.Reader

/-! The configuration of a project. -/
namespace DocSnapshot

/-- Where the snapshot goes, what is left out of it, and how it is made. -/
structure Config where
  projectName : Option String
  languages : List String
  outputDir : String
  ignoreFile : String
  postCommitHook : Bool
  parallelism : Nat
  deadlineSeconds : Option Nat
  deriving DecidableEq, Repr

namespace Config

/-- The configuration of a project that says nothing; work is spread over all processors. -/
def standard (processors : Nat) : Config :=
  { projectName := none
    languages := ["python"]
    outputDir := ".docshadow"
    ignoreFile := ".docignore"
    postCommitHook := true
    parallelism := processors
    deadlineSeconds := none }

def toJson (c : Config) : Json :=
  .obj [("project_name", .optStr c.projectName), ("languages", .strings c.languages),
    ("output_dir", .str c.outputDir), ("ignore_file", .str c.ignoreFile),
    ("hooks", .obj [("post_commit", .bool c.postCommitHook)]),
    ("parallelism", .nat c.parallelism),
    ("deadline_secs", match c.deadlineSeconds with
      | some n => .nat n
      | none => .null)]

open Json.Reader

def readHooks (depth : Depth) : Json.Reader Bool :=
  record depth "struct HookConfig"
    [{ name := "post_commit", optional := true, defaulted := true
       read := fun _ => do
        let b ← boolean
        return fun _ => b }] true

def configFields : List (FieldReader Config) :=
  let field (name : String) (read : Depth → Json.Reader (Config → Config)) : FieldReader Config :=
    { name := name, read := read, optional := true, defaulted := true }
  [field "project_name" fun _ => do
      let v ← Json.Reader.optional (string "a string")
      return fun c => { c with projectName := v },
    field "languages" fun depth => do
      let v ← list depth "a sequence" fun _ => string "a string"
      return fun c => { c with languages := v },
    field "output_dir" fun _ => do
      let v ← string "path string"
      return fun c => { c with outputDir := v },
    field "ignore_file" fun _ => do
      let v ← string "a string"
      return fun c => { c with ignoreFile := v },
    field "hooks" fun depth => do
      let v ← readHooks depth
      return fun c => { c with postCommitHook := v },
    field "parallelism" fun _ => do
      let v ← natural "usize"
      return fun c => { c with parallelism := v },
    field "deadline_secs" fun _ => do
      let v ← Json.Reader.optional (natural "u64")
      return fun c => { c with deadlineSeconds := v }]

def read (processors : Nat) : Json.Reader Config :=
  record fullDepth "struct DocshadowConfig" configFields (standard processors)

def ofText (processors : Nat) (text : String) : Except Json.Fault Config :=
  whole (read processors) text

def workers (c : Config) : Nat := max c.parallelism 1

def deadline (c : Config) : Option Duration := c.deadlineSeconds.map Duration.ofSeconds

def path (root : String) : String := Path.join root "docshadow.config.json"

def outputPath (c : Config) (root : String) : String := Path.join root c.outputDir

def dirName (fs : FileSystem) (root : String) : String :=
  (Path.fileName? (match fs.canonical root with
    | .ok p => p
    | .error _ => root)).getD "project"

def nameFor (c : Config) (fs : FileSystem) (root : String) : String :=
  match c.projectName with
  | some name => if name.isEmpty then dirName fs root else name
  | none => dirName fs root

def forProject (processors : Nat) (fs : FileSystem) (root : String) : Config :=
  { standard processors with projectName := some (dirName fs root) }

def isPresent (fs : FileSystem) (root : String) : Bool := fs.isFile (path root)

def loadFrom (processors : Nat) (fs : FileSystem) (file : String) : Except Error Config :=
  match fs.readText file with
  | .error e => .error (.config (file ++ ": " ++ e.message))
  | .ok text =>
    match ofText processors text with
    | .error e => .error (.config (file ++ ": " ++ e.message))
    | .ok c => .ok c

/-- The configuration of a project; a missing or unreadable one is replaced by the standard. -/
def load (processors : Nat) (fs : FileSystem) (root : String) : Config :=
  match if fs.exists? (path root) then (loadFrom processors fs (path root)).toOption else none with
  | some c => c
  | none => forProject processors fs root

def loadInitialized (processors : Nat) (fs : FileSystem) (root : String) : Except Error Config :=
  if isPresent fs root then loadFrom processors fs (path root)
  else .error (.notInitialized root)

def save (c : Config) (fs : FileSystem) (root : String) : Except Error FileSystem :=
  match fs.writeText (path root) c.toJson.pretty with
  | .ok fs => .ok fs
  | .error e => .error (.persist (path root) e)

end Config

end DocSnapshot
