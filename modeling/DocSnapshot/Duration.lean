/-! Lengths of time. -/
namespace DocSnapshot

structure Duration where
  nanos : Nat
  deriving DecidableEq, Repr

namespace Duration

def ofSeconds (n : Nat) : Duration := ⟨n * 1000000000⟩

def ofMillis (n : Nat) : Duration := ⟨n * 1000000⟩

private def renderIn (nanos unit places : Nat) : List Char :=
  let whole := Nat.toDigits 10 (nanos / unit)
  let digits := Nat.toDigits 10 (nanos % unit)
  let padded := List.replicate (places - digits.length) '0' ++ digits
  match (padded.reverse.dropWhile (· = '0')).reverse with
  | [] => whole
  | fraction => whole ++ '.' :: fraction

def render (d : Duration) : String :=
  if 1000000000 ≤ d.nanos then String.ofList (renderIn d.nanos 1000000000 9 ++ ['s'])
  else if 1000000 ≤ d.nanos then String.ofList (renderIn d.nanos 1000000 6 ++ ['m', 's'])
  else if 1000 ≤ d.nanos then String.ofList (renderIn d.nanos 1000 3 ++ ['µ', 's'])
  else String.ofList (Nat.toDigits 10 d.nanos ++ ['n', 's'])

end Duration

end DocSnapshot
