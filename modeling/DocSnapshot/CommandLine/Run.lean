import DocSnapshot.CommandLine.Output

/-! The program as a function of its arguments and of what it finds around it. -/
namespace DocSnapshot.CommandLine

/-- What the program runs on: the processors, what happens meanwhile, what `git` does in a
directory, and the current directory. -/
structure Host where
  processors : Nat
  environment : Environment
  git : String → GitProgram
  currentDir : String

private def generate (host : Host) (fs : FileSystem) (root : String) (commit : Option String) :
    FileSystem × Output :=
  match Config.loadInitialized host.processors fs root with
  | .error (.notInitialized path) =>
    (fs, .failure "Run 'docshadow init' first" (Error.notInitialized path).chain)
  | .error e => (fs, .failure "Failed to load configuration" e.chain)
  | .ok config =>
    let outcome := (Snapshot.ofConfig root config ((host.git root).source root)).run
      host.environment fs commit
    (outcome.files, .ofAttempt "Documentation generation failed" reportLines outcome.result)

def execute (host : Host) (fs : FileSystem) (root : String) : Command → FileSystem × Output
  | .init =>
    let (fs, result) := Setup.run host.processors fs root ((host.git root).source root)
    (fs, .ofAttempt "Failed to initialize docShadow" (setupLines root) result)
  | .generate commit => generate host fs root commit
  | .status =>
    (fs, .success (statusLines
      (.collect host.processors fs root ((host.git root).source root))))

def run (host : Host) (fs : FileSystem) (arguments : List String) : FileSystem × Output :=
  match Request.ofArguments? arguments with
  | none => (fs, .misuse)
  | some .version => (fs, .success [versionLine])
  | some (.help verb) => (fs, .success (helpLines verb))
  | some (.execute path command) =>
    match fs.canonical (Path.join host.currentDir path) with
    | .error e => (fs, .failure ("Invalid project path: " ++ path) [e.message])
    | .ok root => execute host fs root command

end DocSnapshot.CommandLine
