import DocSnapshot.Error
import DocSnapshot.Text.Split

/-! The hook that runs after each commit. -/
namespace DocSnapshot.Hook

/-- A hook that holds this word is taken to be installed. -/
def marker : String := "docShadow"

def fileName : String := "post-commit"

def body : String :=
  "# docShadow: regenerate structural documentation after each commit\n" ++
  "docshadow generate || true\n"

def isInstalled (script : String) : Bool := Text.occursIn marker.toList script.toList

def appendTo (script : String) : String :=
  script ++ (if script.toList.getLast? = some '\n' then "" else "\n") ++ "\n" ++ body

inductive Status where
  | installed (path : String)
  | appended (path : String)
  | alreadyInstalled (path : String)
  | disabled
  deriving DecidableEq, Repr

def plan (fs : FileSystem) (path : String) : Except IoError (Option (String × Status)) := do
  if fs.exists? path then
    let script ← fs.readText path
    if isInstalled script then return none
    return some (appendTo script, .appended path)
  else return some ("#!/bin/sh\n" ++ body, .installed path)

/-- Installs the hook in a directory. The directory stays even if the hook cannot be written. -/
def install (fs : FileSystem) (dir : String) : FileSystem × Except Error Status :=
  let path := Path.join dir fileName
  match fs.makeDirs dir with
  | (fs, some e) => (fs, .error (.persist path e))
  | (fs, none) =>
    match plan fs path with
    | .error e => (fs, .error (.persist path e))
    | .ok none => (fs, .ok (.alreadyInstalled path))
    | .ok (some (script, status)) =>
      match fs.writeText path script with
      | .error e => (fs, .error (.persist path e))
      | .ok fs =>
        match fs.makeExecutable path with
        | .error e => (fs, .error (.persist path e))
        | .ok fs => (fs, .ok status)

/-- What stands in the place of the hook. -/
inductive State where
  | installed
  | foreign
  | missing
  deriving DecidableEq, Repr

def State.ofDir (fs : FileSystem) (dir : String) : State :=
  match fs.readText (Path.join dir fileName) with
  | .error _ => .missing
  | .ok script => if isInstalled script then .installed else .foreign

end DocSnapshot.Hook
