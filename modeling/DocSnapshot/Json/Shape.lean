import DocSnapshot.Json.Value

/-! Taking JSON values apart. Each reader here accepts exactly one type of value. -/
namespace DocSnapshot.Json

variable {α : Type}

def string? : Json → Option String
  | .str s => some s
  | _ => none

def boolean? : Json → Option Bool
  | .bool b => some b
  | _ => none

def natural? : Json → Option Nat
  | .int (.ofNat n) => if n < Nat.pow 2 64 then some n else none
  | _ => none

def listOf? (read : Json → Option α) : Json → Option (List α)
  | .arr items => items.mapM read
  | _ => none

def strings? (j : Json) : Option (List String) := j.listOf? string?

def optionalString? : Option Json → Option (Option String)
  | none | some .null => some none
  | some j => j.string?.map some

def valuesOf (key : String) (members : List (String × Json)) : List Json :=
  (members.filter (·.1 = key)).map (·.2)

def single? (members : List (String × Json)) (key : String) : Option (Option Json) :=
  match valuesOf key members with
  | [] => some none
  | [j] => some (some j)
  | _ => none

/-- The values of some fields of an object. Other fields are passed over, and none of these may be
repeated. -/
def fields? (names : List String) : Json → Option (List (Option Json))
  | .obj members => names.mapM (single? members)
  | _ => none

/-- The values of some fields: those of an object, or a list with a value for each field. -/
def fieldsOrItems? (names : List String) : Json → Option (List (Option Json))
  | .arr items => if items.length = names.length then some (items.map some) else none
  | j => j.fields? names

end DocSnapshot.Json
