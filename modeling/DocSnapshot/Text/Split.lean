/-! Cutting text at separators. -/
namespace DocSnapshot.Text

private def dropReturn (line : List Char) : List Char :=
  if line.getLast? = some '\r' then line.dropLast else line

def lines (s : List Char) : List (List Char) :=
  let parts := s.splitOn '\n'
  let ended := parts.dropLast.map dropReturn
  match parts.getLast? with
  | some (c :: cs) => ended ++ [c :: cs]
  | _ => ended

def occursIn (part : List Char) : List Char → Bool
  | [] => part.isEmpty
  | c :: cs => part.isPrefixOf (c :: cs) || occursIn part cs

end DocSnapshot.Text
