import DocSnapshot.OrderedMap

/-! Trees of files and directories. -/
namespace DocSnapshot

/-- What a name in a directory stands for. -/
inductive Node where
  | file (bytes : List UInt8) (executable : Bool)
  | link (target : String)
  | dir (entries : List (String × Node))
  deriving Repr, Inhabited

namespace Node

def entries : Node → List (String × Node)
  | .dir es => es
  | _ => []

def isDir : Node → Bool
  | .dir _ => true
  | _ => false

def isFile : Node → Bool
  | .file _ _ => true
  | _ => false

def find? : List String → Node → Option Node
  | [], n => some n
  | s :: rest, n => (OrderedMap.get? s n.entries).bind (find? rest)

def put (new : Node) : List String → Node → Node
  | [], _ => new
  | [s], .dir es => .dir (OrderedMap.set s new es)
  | s :: rest, .dir es =>
    match OrderedMap.get? s es with
    | some n => .dir (OrderedMap.set s (put new rest n) es)
    | none => .dir es
  | _, n => n

def remove : List String → Node → Node
  | [s], .dir es => .dir (OrderedMap.erase s es)
  | s :: rest, .dir es =>
    match OrderedMap.get? s es with
    | some n => .dir (OrderedMap.set s (remove rest n) es)
    | none => .dir es
  | _, n => n

mutual
def size : Node → Nat
  | .dir es => sizes es + 1
  | _ => 1

def sizes : List (String × Node) → Nat
  | [] => 0
  | (_, n) :: rest => size n + sizes rest
end

def isHiddenName (name : String) : Bool := name.toList.head? = some '.'

mutual
/-- The regular files of a tree by their paths, in order. Links are not files, and nothing below a
hidden directory counts. -/
def files : Node → List (List String)
  | .file _ _ => [[]]
  | .link _ => []
  | .dir es => filesOf es

def filesOf : List (String × Node) → List (List String)
  | [] => []
  | (name, n) :: rest =>
    (if n.isDir && isHiddenName name then [] else n.files.map (name :: ·)) ++ filesOf rest
end

end Node

end DocSnapshot
