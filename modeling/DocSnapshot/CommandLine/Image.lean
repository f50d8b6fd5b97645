import DocSnapshot.CommandLine.Run
import DocSnapshot.Json.Shape

/-! A host described in JSON: its current directory, processors, time and files, and what `git`
answers to its arguments. -/
namespace DocSnapshot.CommandLine

/-- A host with its files. -/
structure Image where
  host : Host
  files : FileSystem

namespace Image

def still (time : Timestamp) : Environment where
  cancelled _ := false
  elapsed _ := ⟨0⟩
  clock _ := time
  schedule _ := .start

private def membersOf? : Json → Option (List (String × Json))
  | .obj members => some members
  | _ => none

private def answer? (j : Json) : Option GitOutput := do
  match ← j.fields? ["code", "stdout", "stderr"] with
  | [code, stdout, stderr] =>
    return ⟨← (← code).natural?, ← (← stdout).string?, ← (← stderr).string?⟩
  | _ => none

/-- A `git` that answers by a table, whose keys are the arguments with spaces between them. -/
def gitOfTable (table : List (String × GitOutput)) : GitProgram := fun arguments =>
  match OrderedMap.get? (" ".intercalate arguments) table with
  | some output => .ok output
  | none => .ok ⟨128, "", "fatal: no answer\n"⟩

def addFile (fs : FileSystem) (path text : String) : Except IoError FileSystem :=
  let fs := match Path.parent? path with
    | some dir => (fs.makeDirs dir).1
    | none => fs
  fs.writeText path text

def ofJson? (j : Json) : Option Image := do
  match ← j.fields? ["directory", "processors", "time", "files", "git"] with
  | [directory, processors, time, files, git] =>
    let directory ← (← directory).string?
    let processors ← (← processors).natural?
    let time ← (Timestamp.parse (← (← time).string?)).toOption
    let files ← (← membersOf? (← files)).mapM fun (path, text) => return (path, ← text.string?)
    let table ← (← membersOf? (← git)).mapM fun (key, answer) => return (key, ← answer? answer)
    let fs ← (files.foldlM (fun fs (path, text) => addFile fs path text)
      (FileSystem.empty.makeDirs directory).1).toOption
    return ⟨⟨processors, still time, fun _ => gitOfTable table, directory⟩, fs⟩
  | _ => none

def ofText? (text : String) : Option Image :=
  match Json.Reader.whole (Json.Reader.any Json.Reader.fullDepth) text with
  | .ok j => ofJson? j
  | .error _ => none

end Image

mutual
def filesOfNode (path : String) : Node → List (String × List UInt8 × Bool)
  | .file bytes executable => [(path, bytes, executable)]
  | .link _ => []
  | .dir entries => filesOfEntries path entries

def filesOfEntries (path : String) :
    List (String × Node) → List (String × List UInt8 × Bool)
  | [] => []
  | (name, n) :: rest => filesOfNode (path ++ "/" ++ name) n ++ filesOfEntries path rest
end

def changedFiles (before after : FileSystem) : List (String × List UInt8 × Bool) :=
  let old := filesOfNode "" before.root
  (filesOfNode "" after.root).filter (!old.contains ·)

end DocSnapshot.CommandLine
