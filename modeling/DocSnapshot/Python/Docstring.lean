import DocSnapshot.Text.CharClass

/-! Docstrings without the indentation of the code around them. -/
namespace DocSnapshot.Python.Docstring
open DocSnapshot.Text

def expandTabs (column : Nat) : List Char → List Char
  | [] => []
  | c :: cs =>
    if c = '\t' then
      let pad := 8 - column % 8
      List.replicate pad ' ' ++ expandTabs (column + pad) cs
    else c :: expandTabs (column + 1) cs

def indentWidth (line : List Char) : Nat := (line.takeWhile (· = ' ')).length

def isBlankLine (line : List Char) : Bool := line.all isBlank

def margin? (ls : List (List Char)) : Option Nat :=
  ((ls.filter (!isBlankLine ·)).map indentWidth).min?

def cut (margin : Nat) (line : List Char) : List Char := line.drop (min margin (indentWidth line))

def trimBlankLines (ls : List (List Char)) : List (List Char) :=
  ((ls.reverse.dropWhile isBlankLine).reverse).dropWhile isBlankLine

def cleanLines (doc : List Char) : List (List Char) :=
  match (doc.splitOn '\n').map (expandTabs 0) with
  | [] => []
  | first :: rest => trimBlankLines (trimStart first :: rest.map (cut ((margin? rest).getD 0)))

/-- A docstring with its margin and surrounding blank lines removed: the first line loses all
leading blanks, the others what they have in common. -/
def clean (doc : String) : String :=
  String.ofList (List.intercalate ['\n'] (cleanLines doc.toList))

end DocSnapshot.Python.Docstring
