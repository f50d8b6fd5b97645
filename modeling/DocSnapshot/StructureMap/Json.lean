import DocSnapshot.Json.Reader
import DocSnapshot.StructureMap.Basic

/-! Structure maps as JSON: a file is the path of its record, a directory an object. -/
namespace DocSnapshot

namespace StructureEntry

mutual
def toJson : StructureEntry → Json
  | .file record => .str record
  | .directory entries => .obj (membersOf entries)

def membersOf : List (String × StructureEntry) → List (String × Json)
  | [] => []
  | (k, e) :: rest => (k, e.toJson) :: membersOf rest
end

mutual
def ofJson? : Json → Option StructureEntry
  | .str s => some (.file s)
  | .obj members => (entriesOf? members).map fun es => .directory (OrderedMap.ofList es)
  | _ => none

def entriesOf? : List (String × Json) → Option (List (String × StructureEntry))
  | [] => some []
  | (k, j) :: rest => do
    let e ← ofJson? j
    return (k, e) :: (← entriesOf? rest)
end

end StructureEntry

namespace StructureMap

def toJson (m : StructureMap) : Json := .obj (StructureEntry.membersOf m.entries)

open Json.Reader in
def read : Json.Reader StructureMap := do
  if (← startOfValue) = '\x7b' then
    let depth ← enter fullDepth
    let entries ← members (fun key acc => do
      colon
      match StructureEntry.ofJson? (← any depth) with
      | some e => return OrderedMap.set key e acc
      | none =>
        failClosing '\x7d' "data did not match any variant of untagged enum StructureEntry")
      (← remaining) true []
    closeObject
    return ⟨entries⟩
  else mismatch "a map"

def ofText (text : String) : Except Json.Fault StructureMap := Json.Reader.whole read text

end StructureMap

end DocSnapshot
