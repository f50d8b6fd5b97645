import DocSnapshot.Error
import DocSnapshot.Ignore.Matcher
import DocSnapshot.Text.Split

/-! Finding the sources of a project. -/
namespace DocSnapshot

namespace Ignore.Matcher

def compile (root path : String) (lines : List String) : Except DiscoveryError Matcher :=
  match ofLines root lines with
  | .ok m => .ok m
  | .error e => .error (.pattern path e.message)

/-- The matcher of an ignore file. A file that is missing excludes nothing. -/
def ofFile (fs : FileSystem) (root file : String) : Except DiscoveryError Matcher :=
  let path := Path.join root file
  if fs.exists? path then
    match fs.readText path with
    | .error e => .error (.io e)
    | .ok text => compile root path ((Text.lines text.toList).map String.ofList)
  else .ok empty

def load (fs : FileSystem) (root file : String) : Matcher :=
  match ofFile fs root file with
  | .ok m => m
  | .error _ => empty

end Ignore.Matcher

structure Scan where
  root : String
  files : List String
  ignoredCount : Nat
  deriving DecidableEq, Repr

namespace Scan

/-- The files below a directory, by their paths from it, however long the whole path is. -/
def walk (fs : FileSystem) (root : String) (follow : Bool) :
    Except DiscoveryError (List (List String)) :=
  match fs.stat root with
  | .ok (dir, .dir _) => .ok (fs.filesBelow dir follow)
  | _ => .error (.notFound root)

/-- A path with slashes between its names. -/
def slashed (path : List String) : String :=
  String.ofList (List.intercalate ['/'] (path.map String.toList))

def ofFiles (root : String) (m : Ignore.Matcher) (found : List String) : Scan :=
  let sources := found.filter Path.isSource
  let isExcluded (path : String) : Bool := (m.excludes? path).getD false
  { root := root
    files := ((sources.filter (!isExcluded ·)).mergeSort (· ≤ ·)).eraseDups
    ignoredCount := (sources.filter isExcluded).length }

def run (fs : FileSystem) (root : String) (m : Ignore.Matcher) (follow : Bool) :
    Except DiscoveryError Scan :=
  (walk fs root follow).map fun found => ofFiles root m (found.map slashed)

end Scan

end DocSnapshot
