import DocSnapshot.Commit
import DocSnapshot.Error

/-! Where commits come from. -/
namespace DocSnapshot

/-- What a project can ask of its repository. `commit none` is the commit checked out. -/
structure CommitSource where
  isRepository : Bool
  commit : Option String → Except Error Commit
  branch : Except Error String
  hooksDir : Except Error String

/-- What a run of `git` leaves behind. -/
structure GitOutput where
  code : Int
  stdout : String
  stderr : String
  deriving DecidableEq, Repr

/-- The `git` program: what it does with its arguments, or why it cannot be run. -/
abbrev GitProgram := List String → Except String GitOutput

namespace GitProgram

def query (git : GitProgram) (arguments : List String) : Except Error String :=
  match git arguments with
  | .error e => .error (.git ("failed to run git: " ++ e))
  | .ok out =>
    if out.code = 0 then .ok (String.ofList (Text.trim out.stdout.toList))
    else .error (.git ("git " ++ " ".intercalate arguments ++ " failed: " ++
      String.ofList (Text.trim out.stderr.toList)))

private def peel (rev : String) : List String :=
  ["rev-parse", "--verify", "--quiet", rev ++ "^\x7bcommit\x7d"]

/-- The hash of a revision. Names that look like options are refused. -/
def resolve (git : GitProgram) (rev : Option String) : Except Error String :=
  match rev with
  | some rev =>
    if rev.toList.head? = some '-' || (Text.trim rev.toList).isEmpty then
      .error (.commitNotFound rev)
    else match git.query (peel rev) with
      | .ok hash => .ok hash
      | .error _ => .error (.commitNotFound rev)
  | none =>
    match git.query (peel "HEAD") with
    | .ok hash => .ok hash
    | .error _ => .error (.git "HEAD does not point to a commit")

def commit (git : GitProgram) (rev : Option String) : Except Error Commit := do
  let hash ← git.resolve rev
  let output ← git.query ["show", "-s", "--format=%H%x00%an%x00%cI%x00%B", hash]
  match Commit.parse output with
  | .ok c => return c
  | .error e => throw (.git e)

def source (git : GitProgram) (root : String) : CommitSource where
  isRepository :=
    match git.query ["rev-parse", "--is-inside-work-tree"] with
    | .ok answer => answer = "true"
    | .error _ => false
  commit := git.commit
  branch := git.query ["rev-parse", "--abbrev-ref", "HEAD"]
  hooksDir := (git.query ["rev-parse", "--git-path", "hooks"]).map (Path.join root)

end GitProgram

end DocSnapshot
