import DocSnapshot.CommandLine.Arguments
import DocSnapshot.Setup
import DocSnapshot.Snapshot.Run
import DocSnapshot.Status

/-! What the program prints. -/
namespace DocSnapshot.CommandLine

structure Output where
  code : Nat
  stdout : String
  stderr : String
  deriving DecidableEq, Repr

namespace Output

def lines (ls : List String) : String := String.join (ls.map (· ++ "\n"))

def success (ls : List String) : Output := ⟨0, lines ls, ""⟩

def misuse : Output :=
  ⟨2, "", "Usage: docshadow [OPTIONS] <COMMAND>\n\nFor more information, try '--help'.\n"⟩

private def indented (first further : String) (text : String) : String :=
  first ++ ("\n" ++ further).intercalate ((text.toList.splitOn '\n').map String.ofList)

def causeLines : List String → List String
  | [cause] => [indented "    " "    " cause]
  | causes => causes.zipIdx.map fun (cause, i) =>
    indented ("    " ++ toString i ++ ": ") "       " cause

def failure (attempt : String) (causes : List String) : Output :=
  ⟨1, "", lines (["Error: " ++ attempt, "", "Caused by:"] ++ causeLines causes)⟩

def ofAttempt {α : Type} (attempt : String) (report : α → List String) : Except Error α → Output
  | .ok a => success (report a)
  | .error e => failure attempt e.chain

end Output

def versionLine : String := "docshadow 0.1.0"

private def describe : Verb → String
  | .init => "Initialize docShadow in the current git repository"
  | .generate => "Generate documentation for the current or a given commit"
  | .status => "Show docShadow status"

def helpLines : Option Verb → List String
  | none =>
    ["docShadow - structural documentation snapshots for every git commit",
      "",
      "Usage: docshadow [OPTIONS] <COMMAND>",
      "",
      "Commands:",
      "  init      " ++ describe .init,
      "  generate  " ++ describe .generate,
      "  status    " ++ describe .status,
      "  help      Print this message or the help of the given subcommand(s)",
      "",
      "Options:",
      "  -C, --path <PATH>  Project root (default: current directory) [default: .]",
      "  -h, --help         Print help",
      "  -V, --version      Print version"]
  | some .generate =>
    [describe .generate,
      "",
      "Usage: docshadow generate [OPTIONS]",
      "",
      "Options:",
      "  -c, --commit <COMMIT>  Commit to document (default: HEAD)",
      "  -C, --path <PATH>      Project root (default: current directory) [default: .]",
      "  -h, --help             Print help"]
  | some verb =>
    [describe verb,
      "",
      "Usage: docshadow " ++ (if verb = .init then "init" else "status") ++ " [OPTIONS]",
      "",
      "Options:",
      "  -C, --path <PATH>  Project root (default: current directory) [default: .]",
      "  -h, --help         Print help"]

def setupLines (root : String) (r : Setup.Report) : List String :=
  [if r.configCreated then "✓ Created " ++ Config.path root else "✓ Configuration already present",
    match r.ignoreFile with
    | .existing => "✓ Ignore file already present"
    | .copied => "✓ Created .docignore from .gitignore"
    | .template => "✓ Created default .docignore",
    match r.hook with
    | .installed path => "✓ Installed hook " ++ path
    | .appended path => "✓ Added docShadow to hook " ++ path
    | .alreadyInstalled _ => "✓ Post-commit hook already installed"
    | .disabled => "- Post-commit hook disabled in configuration",
    "",
    "Generate documentation with: docshadow generate"]

private def countFiles (n : Nat) : String := toString n ++ " files"

def reportLines (r : Report) : List String :=
  let layout : Layout := ⟨r.outputDir⟩
  ["✓ Documented commit " ++ r.commit.shortHash ++ " (" ++ countFiles r.documentedFiles.length ++
      ")"] ++
    (if r.failedFiles.isEmpty then []
      else ("  " ++ countFiles r.failedFiles.length ++ " could not be parsed:") ::
        r.failedFiles.map ("    " ++ ·)) ++
    ["  Index:     " ++ layout.manifestFile, "  Structure: " ++ layout.structureFile]

def shownFiles : Nat := 10

private def configLines (s : Status) : List String :=
  match s.config, s.configError with
  | some config, _ =>
    ["  Project:    " ++ s.projectName,
      "  Languages:  " ++ ", ".intercalate config.languages,
      "  Output dir: " ++ config.outputDir,
      "  Hook:       " ++ if config.postCommitHook then "Enabled" else "Disabled"]
  | none, some error => ["  Config:     " ++ error]
  | none, none => []

private def firstLine (text : String) : String :=
  String.ofList ((Text.lines text.toList).headD [])

private def commitLines (s : Status) : List String :=
  (s.branch.map ("  Branch:     " ++ ·)).toList ++
    match s.head, s.gitError with
    | some head, _ =>
      ["  Commit:     " ++ head.shortHash, "  Message:    " ++ firstLine head.message]
    | none, some error => ["  Commit:     unavailable (" ++ error ++ ")"]
    | none, none => []

private def fileLines (s : Status) : List String :=
  if s.files.isEmpty then ["  Files:      No Python files found"]
  else ["  Files:      " ++ toString s.files.length ++ " to document"] ++
    (s.files.take shownFiles).map ("    " ++ ·) ++
    if shownFiles < s.files.length then
      ["    ... and " ++ toString (s.files.length - shownFiles) ++ " more"]
    else []

private def snapshotLines (s : Status) : List String :=
  (match s.latest, s.manifestError with
    | some latest, _ =>
      ["  Snapshot:   " ++ latest.shortCommitHash ++ if s.isCurrent then " (current)" else "",
        "  Date:       " ++ latest.commitDate,
        "  Documented: " ++ countFiles latest.documentedFiles.length]
    | none, some error => ["  Snapshot:   unreadable (" ++ error ++ ")"]
    | none, none =>
      ["  Snapshot:   " ++
        if s.outputDirExists then "none yet" else "output directory not found"]) ++
    ["  Structure:  " ++ if s.structurePresent then "available" else "missing",
      "  Hook:       " ++ match s.hook with
        | some .installed => "installed"
        | some .foreign => "present, not docShadow"
        | some .missing | none => "not installed"]

private def adviceLines (s : Status) : List String :=
  if s.files.isEmpty then ["Add Python files to the project to document them."]
  else if s.latest.isNone then ["Create the first snapshot with: docshadow generate"]
  else if !s.isCurrent then ["Snapshot is behind HEAD. Update with: docshadow generate"]
  else []

def statusLines (s : Status) : List String :=
  ["docShadow Status", ""] ++
    if !s.initialized then
      ["  Status:     Not initialized", "", "Initialize with: docshadow init"]
    else ["  Status:     Initialized"] ++ configLines s ++ [""] ++
      if !s.repository then ["  Git:        Not a git repository"]
      else commitLines s ++ [""] ++ fileLines s ++ [""] ++ snapshotLines s ++ [""] ++ adviceLines s

end DocSnapshot.CommandLine
