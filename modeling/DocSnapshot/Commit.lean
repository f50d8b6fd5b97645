import DocSnapshot.Text.CharClass
import DocSnapshot.Text.Quoted

/-! Commits. -/
namespace DocSnapshot

/-- What is known of a commit. The date is the committer's. -/
structure Commit where
  hash : String
  shortHash : String
  author : String
  date : String
  message : String
  deriving DecidableEq, Repr

namespace Commit

def shortLength : Nat := 7

def make (hash author date message : String) : Commit :=
  { hash := hash
    shortHash := String.ofList (hash.toList.take shortLength)
    author := author
    date := date
    message := String.ofList (Text.trim message.toList) }

def cutAt (separator : Char) : List Char → Option (List Char × List Char)
  | [] => none
  | c :: cs =>
    if c = separator then some ([], cs)
    else (cutAt separator cs).map fun (before, after) => (c :: before, after)

def fields? (output : List Char) :
    Option (List Char × List Char × List Char × List Char) := do
  let (hash, rest) ← cutAt '\x00' output
  let (author, rest) ← cutAt '\x00' rest
  let (date, message) ← cutAt '\x00' rest
  return (hash, author, date, message)

/-- Reads a commit from its hash, author, date and message with null characters between them. The
error shows how the text begins. -/
def parse (output : String) : Except String Commit :=
  let failure := "unexpected commit format: " ++
    Text.described (String.ofList (output.toList.take 80))
  match fields? output.toList with
  | none => .error failure
  | some (hash, author, date, message) =>
    let hash := Text.trim hash
    if hash.isEmpty then .error failure
    else .ok (make (String.ofList hash) (String.ofList author) (String.ofList (Text.trim date))
      (String.ofList message))

end Commit

end DocSnapshot
