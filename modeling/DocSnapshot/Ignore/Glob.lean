import DocSnapshot.Text.Utf8

/-! Glob patterns on the bytes of paths. -/
namespace DocSnapshot.Ignore

/-- The parts of a glob. A star and a question mark stay inside one part of a path; the deep ones
cross slashes. -/
inductive Token where
  | literal (c : Char)
  | any
  | star
  | deepStart
  | deep
  | deepEnd
  | oneOf (negated : Bool) (ranges : List (Char × Char))
  | choice (alternatives : List (List Token))
  deriving Repr

namespace Token

def slash : UInt8 := 47

def bytesOf (c : Char) : List UInt8 := Text.Utf8.encode (String.singleton c)

/-- The byte ranges of a range of characters. A character of several bytes counts as its bytes one
by one, so a range runs from the last byte of its lower end to the first byte of its upper end. -/
def byteRanges (r : Char × Char) : List (UInt8 × UInt8) :=
  let single (b : UInt8) : UInt8 × UInt8 := (b, b)
  let low := bytesOf r.1
  let high := bytesOf r.2
  if r.1 = r.2 then low.map single
  else match low.getLast?, high with
    | some l, h :: rest => low.dropLast.map single ++ (l, h) :: rest.map single
    | _, _ => []

def starRests : List UInt8 → List (List UInt8)
  | [] => [[]]
  | b :: bs => (b :: bs) :: (if b = slash then [] else starRests bs)

def slashRests : List UInt8 → List (List UInt8)
  | [] => []
  | b :: bs => (if b = slash then [bs] else []) ++ slashRests bs

def allRests : List UInt8 → List (List UInt8)
  | [] => [[]]
  | b :: bs => (b :: bs) :: allRests bs

mutual
def isBlank : Token → Bool
  | .choice alternatives => allBlank alternatives
  | _ => false

def areBlank : List Token → Bool
  | [] => true
  | t :: ts => t.isBlank && areBlank ts

def allBlank : List (List Token) → Bool
  | [] => true
  | ts :: rest => areBlank ts && allBlank rest
end

mutual
/-- What is left of a text after each way of reading a token at its start. Of the alternatives of a
group, blank ones do not count. -/
def rests : Token → List UInt8 → List (List UInt8)
  | .literal c, bs =>
    let cs := bytesOf c
    if cs.isPrefixOf bs then [bs.drop cs.length] else []
  | .any, b :: bs => if b = slash then [] else [bs]
  | .any, [] => []
  | .star, bs => starRests bs
  | .deepStart, bs => bs :: slashRests bs
  | .deep, b :: bs => if b = slash then bs :: slashRests bs else []
  | .deep, [] => []
  | .deepEnd, b :: bs => if b = slash then allRests bs else []
  | .deepEnd, [] => []
  | .oneOf negated ranges, b :: bs =>
    if (ranges.flatMap byteRanges).any (fun (l, h) => l ≤ b && b ≤ h) ≠ negated then [bs] else []
  | .oneOf _ _, [] => []
  | .choice alternatives, bs =>
    if allBlank alternatives then [bs] else choiceRests alternatives bs

def seqRests : List Token → List (List UInt8) → List (List UInt8)
  | [], texts => texts
  | t :: ts, texts => seqRests ts (texts.flatMap t.rests).eraseDups

def choiceRests : List (List Token) → List UInt8 → List (List UInt8)
  | [], _ => []
  | ts :: rest, bs => (if areBlank ts then [] else seqRests ts [bs]) ++ choiceRests rest bs
end

def isLiteral : Token → Bool
  | .literal _ => true
  | _ => false

def isLiteralOf (p : Char → Bool) : Token → Bool
  | .literal c => p c
  | _ => false

end Token

/-- A compiled pattern. -/
abbrev Glob := List Token

namespace Glob

def endsWithExtension (g : Glob) : Bool :=
  match g.reverse.dropWhile (Token.isLiteralOf fun c => c ≠ '.' && c ≠ '/') with
  | t :: _ => t.isLiteralOf (· = '.')
  | [] => false

def isByName (g : Glob) : Bool :=
  match g with
  | .deepStart :: t :: ts =>
    if (t :: ts).all Token.isLiteral then !(t :: ts).any (Token.isLiteralOf (· = '/'))
    else g.endsWithExtension
  | _ => !g.all Token.isLiteral && g.endsWithExtension

/-- Whether a glob matches the whole of a path. A glob that is looked up by name finds none in a
path that ends with a period, and a lone deep start matches everything. -/
def matchesPath (g : Glob) (path : String) : Bool :=
  match g with
  | [.deepStart] => true
  | _ => !(g.isByName && path.toList.getLast? = some '.') &&
      (Token.seqRests g [Text.Utf8.encode path]).contains []

end Glob

end DocSnapshot.Ignore
