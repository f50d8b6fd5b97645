import DocSnapshot.Grammar.Production
import Std.Data.HashMap

/-! The item sets of a grammar with one token of lookahead, built as a parse reaches them. -/
namespace DocSnapshot.Grammar

structure Item where
  production : Nat
  dot : Nat
  follow : TokenSet
  deriving DecidableEq, Hashable, Repr, Inhabited

namespace Item

variable (t : Table)

def next? (i : Item) : Option Step := (t.production i.production).steps[i.dot]?

private def passed? (i : Item) : Option Step :=
  if i.dot = 0 then none else (t.production i.production).steps[i.dot - 1]?

def level (i : Item) : Int := ((i.passed? t).bind (·.level)).getD 0

def side (i : Item) : Option Side := (i.passed? t).bind (·.side)

def lhs (i : Item) : Nat := (t.production i.production).lhs

def before (a b : Item) : Bool :=
  if a.dot ≠ b.dot then a.dot < b.dot
  else if a.lhs t ≠ b.lhs t then a.lhs t < b.lhs t
  else a.production ≤ b.production

end Item

/-- An item set: its kernel, what may follow each rule that can begin here, and the tokens that
have an action. -/
structure State where
  kernel : List Item
  begun : Array TokenSet
  valid : TokenSet
  deriving Inhabited

namespace State

variable (t : Table)

private def followNext (i : Item) : TokenSet :=
  match (t.production i.production).steps[i.dot + 1]? with
  | some s => t.firstOf s.symbol
  | none => i.follow

private def begunBy (kernel : List Item) : Array TokenSet :=
  kernel.foldl (fun acc i =>
    match i.next? t with
    | none => acc
    | some s =>
      (t.leftmost.getD s.symbol []).foldl (fun acc (y, f, through) =>
        acc.modify y (· ||| (if through then f ||| followNext t i else f))) acc)
    (Array.replicate t.symbolCount 0)

private def blanks (begun : Array TokenSet) : List Item :=
  (t.ofRule.getD t.tokenCount []).filterMap fun p =>
    let follow := begun.getD t.tokenCount 0
    if (t.production p).steps.isEmpty ∧ follow ≠ 0 then some ⟨p, 0, follow⟩ else none

/-- The state with a given kernel. Only the start rule may be blank. -/
def ofKernel (kernel : List Item) : State :=
  let begun := if kernel.any fun i => ((i.next? t).any (t.tokenCount ≤ ·.symbol))
    then begunBy t kernel else #[]
  let done := (kernel ++ blanks t begun).foldl
    (fun s i => s ||| (match i.next? t with | some x => t.firstOf x.symbol | none => i.follow)) 0
  ⟨kernel, begun, done⟩

private def canonical (i : Item) : Item :=
  { i with production := ((t.alike.getD i.production #[])[i.dot]?).getD i.production }

private def joinAlike : List Item → List Item
  | a :: b :: rest =>
    if a.production = b.production && a.dot = b.dot then
      joinAlike ({ a with follow := a.follow ||| b.follow } :: rest)
    else a :: joinAlike (b :: rest)
  | items => items
termination_by items => items.length

def after (s : State) (symbol : Nat) : List Item :=
  let moved := s.kernel.filterMap fun i =>
    if (i.next? t).any (·.symbol = symbol) then some { i with dot := i.dot + 1 } else none
  let begun := (t.startingWith.getD symbol []).filterMap fun p =>
    let follow := s.begun.getD (t.production p).lhs 0
    if follow ≠ 0 then some ⟨p, 1, follow⟩ else none
  joinAlike (((moved ++ begun).map (canonical t)).mergeSort (Item.before t))

/-- What a state does on a token: the productions to finish, in order, and whether to read on. -/
structure Actions where
  reduce : List Nat
  shift : Bool
  deriving DecidableEq, Repr

private def complete (s : State) (token : Nat) : List Item :=
  (s.kernel ++ blanks t s.begun).filter fun i => (i.next? t).isNone && i.follow.has token

private def continued (s : State) (token : Nat) : List Item :=
  s.kernel.filter fun i => 0 < i.dot && (i.next? t).any fun x => (t.firstOf x.symbol).has token

private def highest (items : List Item) : List Item :=
  items.filter fun i => items.all fun j => j.level t ≤ i.level t

/-- The actions on a token. Between reading on and finishing, the higher level wins, then the side;
a repetition is always finished first; what remains is left to be tried in parallel. -/
def actions (s : State) (token : Nat) : Actions :=
  let done := complete t s token
  let reduce := highest t done
  let shift := s.kernel.any fun i => (i.next? t).any fun x => (t.firstOf x.symbol).has token
  let both : Actions := ⟨reduce.map (·.production), shift⟩
  match reduce with
  | [] => both
  | r :: _ =>
    if !shift then both
    else
      let ongoing := continued t s token
      if t.firstHelper ≤ r.lhs t && (done ++ ongoing).all fun i => i.lhs t = r.lhs t then
        { both with shift := false }
      else
        let more := ongoing.any fun i => r.level t < i.level t
        let less := ongoing.any fun i => i.level t < r.level t
        let sides := reduce.map (·.side t)
        if more && !less then { both with reduce := [] }
        else if less && !more then { both with shift := false }
        else if more && less then both
        else if sides.all (· = some .left) then { both with shift := false }
        else if sides.all (· = some .right) then { both with reduce := [] }
        else both

end State

structure Automaton where
  states : Array State
  known : Std.HashMap (List Item) Nat
  moves : Std.HashMap (Nat × Nat) Nat

namespace Automaton

variable (t : Table)

/-- The automaton with its first state only, which expects the start rule and then the end. -/
def first : Automaton :=
  let kernel : List Item := [⟨0, 0, TokenSet.single 0⟩]
  ⟨#[State.ofKernel t kernel], ({} : Std.HashMap (List Item) Nat).insert kernel 0, {}⟩

def state (a : Automaton) (i : Nat) : State := a.states.getD i default

def move (i symbol : Nat) : StateM Automaton Nat := do
  match (← get).moves.get? (i, symbol) with
  | some j => return j
  | none =>
    let kernel := ((← get).state i).after t symbol
    match (← get).known.get? kernel with
    | some j =>
      modify fun a => { a with moves := a.moves.insert (i, symbol) j }
      return j
    | none =>
      let s := State.ofKernel t kernel
      modifyGet fun ⟨states, known, moves⟩ =>
        let j := states.size
        (j, ⟨states.push s, known.insert kernel j, moves.insert (i, symbol) j⟩)

end Automaton

end DocSnapshot.Grammar
