import DocSnapshot.Grammar.Production

/-! Derivation trees: what the parser puts on its stack, hidden symbols included. -/
namespace DocSnapshot.Grammar

/-- A token found in the text. `before` is where the search for it began, so blanks lie between
`before` and `start`. `layout` is the state of the layout reader if that reader found it. -/
structure Lexeme (σ : Type) where
  token : Nat
  before : Nat
  start : Nat
  stop : Nat
  layout : Option σ
  deriving Repr

/-- A derivation tree with its extent and its total weight. Extras (comments and the like) may
stand between the steps of a production. -/
inductive Tree (σ : Type) where
  | leaf (lexeme : Lexeme σ) (extra : Bool)
  | node (production : Nat) (children : List (Tree σ)) (symbol start stop : Nat)
      (before : Nat) (count : Nat) (weight : Int)

namespace Tree

variable {σ : Type}

def symbol : Tree σ → Nat
  | .leaf l _ => l.token
  | .node _ _ s _ _ _ _ _ => s

def start : Tree σ → Nat
  | .leaf l _ => l.start
  | .node _ _ _ s _ _ _ _ => s

def stop : Tree σ → Nat
  | .leaf l _ => l.stop
  | .node _ _ _ _ s _ _ _ => s

def before : Tree σ → Nat
  | .leaf l _ => l.before
  | .node _ _ _ _ _ b _ _ => b

def children : Tree σ → List (Tree σ)
  | .leaf _ _ => []
  | .node _ cs _ _ _ _ _ _ => cs

def count : Tree σ → Nat
  | .leaf _ _ => 0
  | .node _ _ _ _ _ _ n _ => n

def weight : Tree σ → Int
  | .leaf _ _ => 0
  | .node _ _ _ _ _ _ _ w => w

def isExtra : Tree σ → Bool
  | .leaf _ e => e
  | .node .. => false

def layout? : Tree σ → Option σ
  | .leaf l _ => l.layout
  | .node .. => none

def ofProduction (t : Table) (production : Nat) (children : List (Tree σ)) (pos : Nat) : Tree σ :=
  let p := t.production production
  .node production children p.lhs
    ((children.head?.map start).getD pos) ((children.getLast?.map stop).getD pos)
    ((children.head?.map before).getD pos) children.length
    (children.foldl (fun w c => w + c.weight) p.weight)

/-- Two trees that cover the same text with the same symbol, so that only one need be kept. -/
def interchangeable [BEq σ] (a b : Tree σ) : Bool :=
  a.symbol == b.symbol && a.before == b.before && a.start == b.start && a.stop == b.stop &&
    a.count == b.count && a.isExtra == b.isExtra && a.layout? == b.layout?

mutual
/-- The order of trees of equal weight: by symbol, then by number of children, then child by
child. -/
def compare : Tree σ → Tree σ → Ordering
  | a@(.leaf ..), b => headOrder a b
  | a@(.node _ cs ..), b => (headOrder a b).then (compareAll cs b.children)

def compareAll : List (Tree σ) → List (Tree σ) → Ordering
  | [], _ => .eq
  | _ :: _, [] => .eq
  | c :: cs, d :: ds => (compare c d).then (compareAll cs ds)

def headOrder (a b : Tree σ) : Ordering :=
  (Ord.compare a.symbol b.symbol).then (Ord.compare a.count b.count)
end

end Tree

end DocSnapshot.Grammar
