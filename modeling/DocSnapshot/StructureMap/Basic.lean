import DocSnapshot.OrderedMap
import DocSnapshot.Path

/-! The structure map: the sources of a project by directory, each with the path of its record. -/
namespace DocSnapshot

inductive StructureEntry where
  | file (record : String)
  | directory (entries : List (String × StructureEntry))
  deriving Repr, Inhabited

/-- The top level of a structure map. -/
structure StructureMap where
  entries : List (String × StructureEntry)
  deriving Repr

namespace StructureEntry

def children : StructureEntry → List (String × StructureEntry)
  | .file _ => []
  | .directory entries => entries

def isDirectory : StructureEntry → Bool
  | .file _ => false
  | .directory _ => true

def find? : List String → List (String × StructureEntry) → Option StructureEntry
  | [], _ => none
  | [s], entries => OrderedMap.get? s entries
  | s :: rest, entries =>
    match OrderedMap.get? s entries with
    | some (.directory inner) => find? rest inner
    | _ => none

/-- Puts a file some segments down from a level. Directories on the way replace files, and a file
never replaces a directory. -/
def insert (record : String) :
    List String → List (String × StructureEntry) → List (String × StructureEntry)
  | [], entries => entries
  | [s], entries =>
    match OrderedMap.get? s entries with
    | some (.directory _) => entries
    | _ => OrderedMap.set s (.file record) entries
  | s :: rest, entries =>
    let inner := ((OrderedMap.get? s entries).map children).getD []
    OrderedMap.set s (.directory (insert record rest inner)) entries

mutual
def fileCount : StructureEntry → Nat
  | .file _ => 1
  | .directory entries => fileCounts entries

def fileCounts : List (String × StructureEntry) → Nat
  | [] => 0
  | (_, e) :: rest => fileCount e + fileCounts rest
end

end StructureEntry

namespace StructureMap

def empty : StructureMap := ⟨[]⟩

def isEmpty (m : StructureMap) : Bool := m.entries.isEmpty

def get? (m : StructureMap) (path : String) : Option StructureEntry :=
  StructureEntry.find? (Path.segments path) m.entries

def insert (m : StructureMap) (source : String) : StructureMap :=
  ⟨StructureEntry.insert (Path.recordPath source) (Path.segments source) m.entries⟩

def fileCount (m : StructureMap) : Nat := StructureEntry.fileCounts m.entries

def build (sources : List String) : StructureMap :=
  (sources.mergeSort (· ≤ ·)).eraseDups.foldl insert empty

end StructureMap

end DocSnapshot
