/-! Grammars as values: rules made of tokens, references, sequences and choices, with the marks
that decide between two readings of one text. -/
namespace DocSnapshot.Grammar

/-- Which way equal levels group: to the left by finishing the rule, to the right by reading on. -/
inductive Side where
  | left
  | right
  deriving DecidableEq, Repr, Hashable

structure Label where
  kind : String
  named : Bool
  deriving DecidableEq, Repr, Hashable

/-- The right-hand side of a rule. `level` and `side` settle a conflict when the tables are built,
`weight` settles one between finished readings. -/
inductive Rule where
  | blank
  | token (name : String)
  | ref (name : String)
  | seq (first rest : Rule)
  | alt (first rest : Rule)
  | many1 (body : Rule)
  | level (n : Int) (body : Rule)
  | side (s : Side) (body : Rule)
  | weight (n : Int) (body : Rule)
  | field (name : String) (body : Rule)
  | label (as : Label) (body : Rule)
  deriving DecidableEq, Repr

/-- A bare string in a rule is the token with that text. -/
instance : Coe String Rule := ⟨Rule.token⟩

namespace Rule

def all : List Rule → Rule
  | [] => .blank
  | [r] => r
  | r :: rs => .seq r (all rs)

def any : List Rule → Rule
  | [] => .blank
  | [r] => r
  | r :: rs => .alt r (any rs)

def opt (r : Rule) : Rule := .alt r .blank

def many (r : Rule) : Rule := opt (.many1 r)

def sepBy1 (r s : Rule) : Rule := .seq r (many (.seq s r))

def commaSep1 (r : Rule) : Rule := sepBy1 r ","

def leftAt (n : Int) (r : Rule) : Rule := .level n (.side .left r)

def rightAt (n : Int) (r : Rule) : Rule := .level n (.side .right r)

def shownAs (kind : String) (r : Rule) : Rule := .label ⟨kind, true⟩ r

end Rule

end DocSnapshot.Grammar

namespace DocSnapshot
open Grammar (Rule)

/-- A grammar. Rules keep the order in which they are listed; the first is the start rule.
A `hidden` rule makes no node of its own, an `inlined` rule is replaced by its alternatives. -/
structure Grammar where
  rules : List (String × Rule)
  hidden : List String
  inlined : List String
  namedTokens : List String
  hiddenTokens : List String
  extras : List String
  word : String

end DocSnapshot
