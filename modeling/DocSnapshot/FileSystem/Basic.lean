import DocSnapshot.FileSystem.Node
import DocSnapshot.Path
import DocSnapshot.Text.Utf8

/-! A file system and what can be done to it. -/
namespace DocSnapshot

inductive IoError where
  | notFound
  | alreadyExists
  | notDirectory
  | isDirectory
  | nameTooLong
  | notEmpty
  | tooManyLinks
  | nullByte
  | notText
  | other (text : String)
  deriving DecidableEq, Repr

def IoError.message : IoError → String
  | .notFound => "No such file or directory (os error 2)"
  | .alreadyExists => "File exists (os error 17)"
  | .notDirectory => "Not a directory (os error 20)"
  | .isDirectory => "Is a directory (os error 21)"
  | .nameTooLong => "File name too long (os error 36)"
  | .notEmpty => "Directory not empty (os error 39)"
  | .tooManyLinks => "Too many levels of symbolic links (os error 40)"
  | .nullByte => "file name contained an unexpected NUL byte"
  | .notText => "stream did not contain valid UTF-8"
  | .other text => text

/-- All files, from the root directory down. -/
structure FileSystem where
  root : Node
  deriving Repr

namespace FileSystem

def empty : FileSystem := ⟨.dir []⟩

def find? (fs : FileSystem) (path : List String) : Option Node := fs.root.find? path

def put (fs : FileSystem) (path : List String) (n : Node) : FileSystem := ⟨Node.put n path fs.root⟩

def remove (fs : FileSystem) (path : List String) : FileSystem := ⟨Node.remove path fs.root⟩

/-- Where a path leads: to a node, or to a free name in a directory. `trailing` tells whether a
slash follows the free name. -/
inductive Found where
  | present (path : List String) (node : Node)
  | absent (dir : List String) (name : String) (trailing : Bool)
  deriving Repr

def maxLinks : Nat := 40

def maxName : Nat := 255

def maxPath : Nat := 4095

def partsOf (path : String) : List String :=
  (path.toList.splitOn '/').map String.ofList

/-- Follows the parts of a path from the directory `here`, whose names are given last first. A link
at the very end is followed only on request. -/
def walkParts (fs : FileSystem) (follow : Bool) (links : Nat) (here : List String)
    (parts : List String) : Except IoError Found :=
  match parts with
  | [] => .ok (.present here.reverse ((fs.find? here.reverse).getD (.dir [])))
  | p :: rest =>
    if p = "" || p = "." then walkParts fs follow links here rest
    else if p = ".." then walkParts fs follow links here.tail rest
    else if maxName < p.utf8ByteSize then .error .nameTooLong
    else match fs.find? (p :: here).reverse with
      | none =>
        if rest.all (· = "") then .ok (.absent here.reverse p (!rest.isEmpty))
        else .error .notFound
      | some (.file bytes x) =>
        if rest.isEmpty then .ok (.present (p :: here).reverse (.file bytes x))
        else .error .notDirectory
      | some (.dir _) => walkParts fs follow links (p :: here) rest
      | some (.link target) =>
        if rest.isEmpty && !follow then .ok (.present (p :: here).reverse (.link target))
        else match links with
          | 0 => .error .tooManyLinks
          | n + 1 =>
            walkParts fs follow n (if Path.isAbsolute target then [] else here)
              (partsOf target ++ rest)
termination_by (links, parts.length)

def resolve (fs : FileSystem) (path : String) (follow : Bool) : Except IoError Found :=
  if path.toList.contains '\x00' then .error .nullByte
  else if path.isEmpty then .error .notFound
  else if maxPath < path.utf8ByteSize then .error .nameTooLong
  else walkParts fs follow maxLinks [] (partsOf path)

def stat (fs : FileSystem) (path : String) : Except IoError (List String × Node) := do
  match ← fs.resolve path true with
  | .present p n => return (p, n)
  | .absent .. => throw .notFound

def exists? (fs : FileSystem) (path : String) : Bool :=
  match fs.stat path with
  | .ok _ => true
  | .error _ => false

def isFile (fs : FileSystem) (path : String) : Bool :=
  match fs.stat path with
  | .ok (_, n) => n.isFile
  | .error _ => false

def isDir (fs : FileSystem) (path : String) : Bool :=
  match fs.stat path with
  | .ok (_, n) => n.isDir
  | .error _ => false

def render (path : List String) : String :=
  "/" ++ String.ofList (List.intercalate ['/'] (path.map String.toList))

def canonical (fs : FileSystem) (path : String) : Except IoError String :=
  (fs.stat path).map fun (p, _) => render p

def read (fs : FileSystem) (path : String) : Except IoError (List UInt8) := do
  match ← fs.stat path with
  | (_, .file bytes _) => return bytes
  | _ => throw .isDirectory

def readText (fs : FileSystem) (path : String) : Except IoError String := do
  match Text.Utf8.decode (← fs.read path) with
  | .ok s => return s
  | .error _ => throw .notText

def write (fs : FileSystem) (path : String) (bytes : List UInt8) : Except IoError FileSystem := do
  match ← fs.resolve path true with
  | .present p (.file _ x) => return fs.put p (.file bytes x)
  | .present _ _ => throw .isDirectory
  | .absent dir name trailing =>
    if trailing then throw .isDirectory else return fs.put (dir ++ [name]) (.file bytes false)

def writeText (fs : FileSystem) (path text : String) : Except IoError FileSystem :=
  fs.write path (Text.Utf8.encode text)

def makeDir (fs : FileSystem) (path : String) : Except IoError FileSystem := do
  match ← fs.resolve path false with
  | .present _ _ => throw .alreadyExists
  | .absent dir name _ => return fs.put (dir ++ [name]) (.dir [])

def ensureDir (fs : FileSystem) (path : String) : Except IoError FileSystem :=
  match fs.makeDir path with
  | .ok fs => .ok fs
  | .error e => if fs.isDir path then .ok fs else .error e

/-- Makes a directory with those above it that are missing, at most `n` levels. Directories made
before a failure stay. -/
def makeDirsWithin (fs : FileSystem) (path : String) : Nat → FileSystem × Option IoError
  | 0 => (fs, some (.other "failed to create whole tree"))
  | n + 1 =>
    if path.isEmpty then (fs, none)
    else match fs.makeDir path with
      | .ok fs => (fs, none)
      | .error .notFound =>
        match Path.parent? path with
        | none => (fs, some (.other "failed to create whole tree"))
        | some parent =>
          match makeDirsWithin fs parent n with
          | (fs, some e) => (fs, some e)
          | (fs, none) =>
            match ensureDir fs path with
            | .ok fs => (fs, none)
            | .error e => (fs, some e)
      | .error e => (fs, if fs.isDir path then none else some e)

def makeDirs (fs : FileSystem) (path : String) : FileSystem × Option IoError :=
  makeDirsWithin fs path (path.length + 1)

/-- Whether a node may take the place of another: directories replace only empty directories. -/
def mayReplace (new old : Node) : Except IoError Unit :=
  match new, old with
  | .dir _, .dir [] => .ok ()
  | .dir _, .dir _ => .error .notEmpty
  | .dir _, _ => .error .notDirectory
  | _, .dir _ => .error .isDirectory
  | _, _ => .ok ()

def rename (fs : FileSystem) (source target : String) : Except IoError FileSystem := do
  match ← fs.resolve source false with
  | .absent .. => throw .notFound
  | .present p n =>
    match ← fs.resolve target false with
    | .present q old =>
      if p = q then return fs
      mayReplace n old
      return (fs.remove p).put q n
    | .absent dir name trailing =>
      if trailing && !n.isDir then throw .notDirectory
      return (fs.remove p).put (dir ++ [name]) n

def copy (fs : FileSystem) (source target : String) : Except IoError FileSystem := do
  match ← fs.stat source with
  | (_, .file bytes x) =>
    let fs ← fs.write target bytes
    match ← fs.stat target with
    | (p, .file bytes _) => return fs.put p (.file bytes x)
    | _ => return fs
  | _ => throw (.other "the source path is neither a regular file nor a symlink to a regular file")

def makeExecutable (fs : FileSystem) (path : String) : Except IoError FileSystem := do
  match ← fs.stat path with
  | (p, .file bytes _) => return fs.put p (.file bytes true)
  | _ => return fs

def isExecutable (fs : FileSystem) (path : String) : Bool :=
  match fs.stat path with
  | .ok (_, .file _ x) => x
  | .ok (_, n) => n.isDir
  | .error _ => false

def makeLink (fs : FileSystem) (path target : String) : Except IoError FileSystem := do
  match ← fs.resolve path false with
  | .present _ _ => throw .alreadyExists
  | .absent dir name _ => return fs.put (dir ++ [name]) (.link target)

def removeAll (fs : FileSystem) (path : String) : Except IoError FileSystem := do
  match ← fs.resolve path false with
  | .present p _ => return fs.remove p
  | .absent .. => throw .notFound

/-- The files below a directory when links are followed. A link to a directory that the walk is
already inside leads nowhere. `inside` holds those directories, and `n` bounds the depth. -/
def followedFiles (fs : FileSystem) : Nat → List (List String) → List String → List (List String)
  | 0, _, _ => []
  | n + 1, inside, here =>
    (((fs.find? here).map Node.entries).getD []).flatMap fun (name, node) =>
      let under (dir : List String) : List (List String) :=
        if Node.isHiddenName name then []
        else (followedFiles fs n (dir :: inside) dir).map (name :: ·)
      match node with
      | .file _ _ => [[name]]
      | .dir _ => under (here ++ [name])
      | .link _ =>
        match fs.stat (render (here ++ [name])) with
        | .ok (_, .file _ _) => [[name]]
        | .ok (dir, .dir _) => if inside.contains dir then [] else under dir
        | _ => []

/-- The files below a directory, by their paths from it. The bound on the bytes of a path is left
out: files are listed also where `stat` refuses the whole path as too long. -/
def filesBelow (fs : FileSystem) (dir : List String) (follow : Bool) : List (List String) :=
  if follow then
    let n := fs.root.size + 1
    fs.followedFiles (n * n) [dir] dir
  else Node.filesOf (((fs.find? dir).map Node.entries).getD [])

end FileSystem

end DocSnapshot
