import DocSnapshot.Python.Literal

/-! JSON values and their two written forms. -/
namespace DocSnapshot

/-- A JSON value. Objects keep the order of their members, and may repeat a key. -/
inductive Json where
  | null
  | bool (b : Bool)
  | int (n : Int)
  | float (x : Decimal.Binary64)
  | str (s : String)
  | arr (items : List Json)
  | obj (members : List (String × Json))
  deriving Inhabited

namespace Json

instance : Coe String Json := ⟨Json.str⟩

def nat (n : Nat) : Json := .int n

def strings (ss : List String) : Json := .arr (ss.map .str)

def optStr : Option String → Json
  | some s => .str s
  | none => .null

def escapeChar (c : Char) : List Char :=
  if c = '"' then ['\\', '"']
  else if c = '\\' then ['\\', '\\']
  else if c = '\x08' then ['\\', 'b']
  else if c = '\x0c' then ['\\', 'f']
  else if c = '\n' then ['\\', 'n']
  else if c = '\r' then ['\\', 'r']
  else if c = '\t' then ['\\', 't']
  else if c < ' ' then ['\\', 'u'] ++ Text.hexDigits 4 c.toNat
  else [c]

def renderString (s : String) : List Char := '"' :: s.toList.flatMap escapeChar ++ ['"']

def renderInt : Int → List Char
  | .ofNat n => Nat.toDigits 10 n
  | .negSucc n => '-' :: Nat.toDigits 10 (n + 1)

def commaSeparated : List (List Char) → List Char
  | [] => []
  | [x] => x
  | x :: rest => x ++ ',' :: commaSeparated rest

mutual
def compactChars : Json → List Char
  | .null => ['n', 'u', 'l', 'l']
  | .bool true => ['t', 'r', 'u', 'e']
  | .bool false => ['f', 'a', 'l', 's', 'e']
  | .int n => renderInt n
  | .float x => (Python.Literal.renderFloat x).toList
  | .str s => renderString s
  | .arr items => '[' :: commaSeparated (compactItems items) ++ [']']
  | .obj members => '\x7b' :: commaSeparated (compactMembers members) ++ ['\x7d']

def compactItems : List Json → List (List Char)
  | [] => []
  | j :: rest => compactChars j :: compactItems rest

def compactMembers : List (String × Json) → List (List Char)
  | [] => []
  | (k, j) :: rest => (renderString k ++ ':' :: compactChars j) :: compactMembers rest
end

def newline (depth : Nat) : List Char := '\n' :: List.replicate (2 * depth) ' '

/-- Items on lines of their own between brackets; nothing between them if there are none. -/
def layOut (depth : Nat) (opening closing : Char) (items : List (List Char)) : List Char :=
  match items with
  | [] => [opening, closing]
  | _ => opening :: commaSeparated (items.map (newline (depth + 1) ++ ·)) ++
      (newline depth ++ [closing])

mutual
def prettyChars (depth : Nat) : Json → List Char
  | .arr items => layOut depth '[' ']' (prettyItems (depth + 1) items)
  | .obj members => layOut depth '\x7b' '\x7d' (prettyMembers (depth + 1) members)
  | .null => compactChars .null
  | .bool b => compactChars (.bool b)
  | .int n => compactChars (.int n)
  | .float x => compactChars (.float x)
  | .str s => compactChars (.str s)

def prettyItems (depth : Nat) : List Json → List (List Char)
  | [] => []
  | j :: rest => prettyChars depth j :: prettyItems depth rest

def prettyMembers (depth : Nat) : List (String × Json) → List (List Char)
  | [] => []
  | (k, j) :: rest =>
    (renderString k ++ ':' :: ' ' :: prettyChars depth j) :: prettyMembers depth rest
end

def compact (j : Json) : String := String.ofList j.compactChars

def pretty (j : Json) : String := String.ofList (j.prettyChars 0)

end Json

end DocSnapshot
