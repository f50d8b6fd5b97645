/-! Maps from names to values, kept as lists in the order of their names. -/
namespace DocSnapshot.OrderedMap

variable {α : Type}

def get? (key : String) : List (String × α) → Option α
  | [] => none
  | (k, a) :: rest => if k = key then some a else get? key rest

def set (key : String) (value : α) : List (String × α) → List (String × α)
  | [] => [(key, value)]
  | (k, a) :: rest =>
    if key = k then (key, value) :: rest
    else if key < k then (key, value) :: (k, a) :: rest
    else (k, a) :: set key value rest

def erase (key : String) (entries : List (String × α)) : List (String × α) :=
  entries.filter (·.1 ≠ key)

def ofList (entries : List (String × α)) : List (String × α) :=
  entries.foldl (fun m (k, a) => set k a m) []

end DocSnapshot.OrderedMap
