/-! Classes of characters given by the code points at which membership changes. -/
namespace DocSnapshot.Text

/-- A set of characters. Membership is off at code point zero and changes at every bound. -/
structure CharClass where
  bounds : Array Nat

namespace CharClass

def has (s : CharClass) (c : Char) : Bool := s.bounds.countP (· ≤ c.toNat) % 2 == 1

end CharClass

def isBlank (c : Char) : Bool :=
  c = ' ' || ('\x09' ≤ c && c ≤ '\x0d') || c = '\x85' || c = '\u00a0' || c = '\u1680' ||
    ('\u2000' ≤ c && c ≤ '\u200a') || c = '\u2028' || c = '\u2029' || c = '\u202f' ||
    c = '\u205f' || c = '\u3000'

def trimStart (s : List Char) : List Char := s.dropWhile isBlank

def trimEnd (s : List Char) : List Char := (s.reverse.dropWhile isBlank).reverse

def trim (s : List Char) : List Char := trimEnd (trimStart s)

end DocSnapshot.Text
