import DocSnapshot.Grammar.Rule
import Std.Data.HashMap

/-! Rules flattened into productions. Repetition becomes a left-to-right binary helper rule, choices
become separate productions, and inlined rules disappear. -/
namespace DocSnapshot.Grammar

abbrev TokenSet := Nat

namespace TokenSet

def single (t : Nat) : TokenSet := 1 <<< t

def has (s : TokenSet) (t : Nat) : Bool := Nat.testBit s t

end TokenSet

/-- One symbol of a production. Symbols below the token count are tokens, the others are rules. -/
structure Step where
  symbol : Nat
  level : Option Int
  side : Option Side
  field : Option String
  label : Option Label
  deriving DecidableEq, Repr, Inhabited, Hashable

structure Production where
  lhs : Nat
  steps : Array Step
  weight : Int
  deriving DecidableEq, Repr, Inhabited

inductive Shown where
  | hidden
  | anonymous
  | named
  deriving DecidableEq, Repr, Inhabited

private abbrev Helpers := Array Rule

private def helperName (i : Nat) : String := "repeat " ++ toString i

private def nameRepeats : Rule → StateM Helpers Rule
  | .blank => pure .blank
  | .token t => pure (.token t)
  | .ref r => pure (.ref r)
  | .seq a b => do return .seq (← nameRepeats a) (← nameRepeats b)
  | .alt a b => do return .alt (← nameRepeats a) (← nameRepeats b)
  | .level n r => do return .level n (← nameRepeats r)
  | .side s r => do return .side s (← nameRepeats r)
  | .weight n r => do return .weight n (← nameRepeats r)
  | .field f r => do return .field f (← nameRepeats r)
  | .label l r => do return .label l (← nameRepeats r)
  | .many1 r => do
    let body ← nameRepeats r
    let known ← get
    match known.findIdx? (· == body) with
    | some i => return .ref (helperName i)
    | none =>
      set (known.push body)
      return .ref (helperName known.size)

private def nameAllRepeats : List (String × Rule) → StateM Helpers (List (String × Rule))
  | [] => pure []
  | (n, r) :: rest => do
    let named ← nameRepeats r
    return (n, named) :: (← nameAllRepeats rest)

private structure Marks where
  level : Option Int := none
  side : Option Side := none
  field : Option String := none
  label : Option Label := none

private abbrev Alternative := List Step × Int

private def heavier (a b : Int) : Int := if b.natAbs > a.natAbs then b else a

private def mapLast (f : Step → Step) : List Step → List Step
  | [] => []
  | [s] => [f s]
  | s :: rest => s :: mapLast f rest

private def flatten (index : Bool → String → Nat) : Rule → Marks → Bool → List Alternative
  -- A level or side holds for every step of its part; the last step of a part that something
  -- follows takes the mark of the surroundings.
  | .blank, _, _ => [([], 0)]
  | .token t, m, _ => [([⟨index true t, m.level, m.side, m.field, m.label⟩], 0)]
  | .ref r, m, _ => [([⟨index false r, m.level, m.side, m.field, m.label⟩], 0)]
  | .seq a b, m, atEnd =>
    (flatten index a m false).flatMap fun (xs, w) =>
      (flatten index b m atEnd).map fun (ys, v) => (xs ++ ys, heavier w v)
  | .alt a b, m, atEnd => flatten index a m atEnd ++ flatten index b m atEnd
  | .many1 r, m, atEnd => flatten index r m atEnd
  | .level n r, m, atEnd =>
    (flatten index r { m with level := some n } atEnd).map fun (xs, w) =>
      (if atEnd then xs else mapLast (fun s => { s with level := m.level }) xs, w)
  | .side d r, m, atEnd =>
    (flatten index r { m with side := some d } atEnd).map fun (xs, w) =>
      (if atEnd then xs else mapLast (fun s => { s with side := m.side }) xs, w)
  | .weight n r, m, atEnd =>
    (flatten index r m atEnd).map fun (xs, w) => (xs, heavier n w)
  | .field f r, m, atEnd => flatten index r { m with field := some f } atEnd
  | .label l r, m, atEnd => flatten index r { m with label := some l } atEnd

private def inlineStep (outer : Step) (inner : List Step) : List Step :=
  -- They take its field and label, and the last one its level and side where it has none.
  let marked := inner.map fun s =>
    { s with field := outer.field.or s.field, label := outer.label.or s.label }
  mapLast (fun s => { s with level := s.level.or outer.level, side := s.side.or outer.side }) marked

private def inlineSteps (inlined : Std.HashMap Nat (List Alternative)) :
    List Step → Int → List Alternative
  | [], w => [([], w)]
  | s :: rest, w =>
    match inlined.get? s.symbol with
    | none => (inlineSteps inlined rest w).map fun (ys, v) => (s :: ys, v)
    | some alternatives =>
      alternatives.flatMap fun (xs, u) =>
        (inlineSteps inlined rest (heavier w u)).map fun (ys, v) => (inlineStep s xs ++ ys, v)

private def tokenNames : Rule → List String
  | .blank | .ref _ => []
  | .token t => [t]
  | .seq a b | .alt a b => tokenNames a ++ tokenNames b
  | .many1 r | .level _ r | .side _ r | .weight _ r | .field _ r | .label _ r => tokenNames r

def endToken : String := "end of text"

/-- A grammar in the form the item sets are built from. Rule symbol `tokenCount + i` is rule `i`;
rules from `firstHelper` on are the helpers of repetitions. Production 0 is the start. -/
structure Table where
  tokenNames : Array String
  tokenIndex : Std.HashMap String Nat
  tokenCount : Nat
  symbolCount : Nat
  firstHelper : Nat
  labels : Array Label
  shown : Array Shown
  productions : Array Production
  /-- For each symbol, the productions of that rule. -/
  ofRule : Array (List Nat)
  /-- For each symbol, the productions that begin with it. -/
  startingWith : Array (List Nat)
  /-- For each symbol, the tokens that can begin it. -/
  first : Array TokenSet
  /-- For each symbol, the rules that can stand leftmost in it, the tokens that can follow each
  there, and whether what follows the symbol can follow it too. -/
  leftmost : Array (List (Nat × TokenSet × Bool))
  /-- For each production and each place in it, the first production that goes on alike. -/
  alike : Array (Array Nat)
  extras : TokenSet
  word : Nat
  deriving Inhabited

private def growFirst (ps : Array Production) (first : Array TokenSet) : Array TokenSet :=
  ps.foldl (fun acc p =>
    match p.steps[0]? with
    | none => acc
    | some s => acc.modify p.lhs (· ||| (acc.getD s.symbol 0))) first

private def firstSets (ps : Array Production) (tokenCount symbolCount : Nat) : Array TokenSet :=
  let start := (Array.range symbolCount).map fun x =>
    if x < tokenCount then TokenSet.single x else 0
  symbolCount.fold (fun _ _ acc => growFirst ps acc) start

private def growLeftmost (ps : Array Production) (ofRule : Array (List Nat))
    (first : Array TokenSet) (tokenCount : Nat) (acc : Array (Option (TokenSet × Bool))) :
    Array (Option (TokenSet × Bool)) :=
  acc.size.fold (fun x _ acc =>
    match acc.getD x none with
    | none => acc
    | some (follow, through) =>
      (ofRule.getD x []).foldl (fun acc i =>
        let steps := (ps.getD i default).steps
        match steps[0]? with
        | none => acc
        | some s =>
          if s.symbol < tokenCount then acc
          else
            let (f, t) := match steps[1]? with
              | some next => (first.getD next.symbol 0, false)
              | none => (follow, through)
            acc.modify s.symbol fun old =>
              match old with
              | none => some (f, t)
              | some (f', t') => some (f' ||| f, t' || t)) acc) acc

private def settle {α : Type} [BEq α] (grow : α → α) : Nat → α → α
  | 0, a => a
  | n + 1, a =>
    let b := grow a
    if b == a then a else settle grow n b

private def leftmostOf (ps : Array Production) (ofRule : Array (List Nat))
    (first : Array TokenSet) (tokenCount symbolCount x : Nat) : List (Nat × TokenSet × Bool) :=
  if x < tokenCount then []
  else
    let start := (Array.replicate symbolCount none).set! x (some (0, true))
    let found := settle (growLeftmost ps ofRule first tokenCount) symbolCount start
    (List.range symbolCount).filterMap fun y =>
      (found.getD y none).map fun (f, t) => (y, f, t)

private def growFielded (ps : Array Production) (isHidden : Nat → Bool) (fielded : Array Bool) :
    Array Bool :=
  ps.foldl (fun acc p =>
    if isHidden p.lhs && p.steps.any fun s => s.field.isSome || acc.getD s.symbol false then
      acc.set! p.lhs true
    else acc) fielded

private structure Outlook where
  lhs : Nat
  weight : Int
  passed : Option (Option Int × Option Side)
  behind : List (Option String × Option Label × Option Nat)
  ahead : List Step
  deriving BEq, Hashable

private def Production.outlook (p : Production) (fielded : Array Bool) (dot : Nat) : Outlook :=
  let behind := p.steps.toList.take dot
  let carry := behind.any fun s => fielded.getD s.symbol false
  { lhs := p.lhs
    weight := p.weight
    passed := behind.getLast?.map fun s => (s.level, s.side)
    behind := behind.map fun s => (s.field, s.label, if carry then some s.symbol else none)
    ahead := p.steps.toList.drop dot }

private def alikeOf (ps : Array Production) (fielded : Array Bool) : Array (Array Nat) :=
  let (_, found) := ps.size.fold (fun i _ (seen, found) =>
    let p := ps.getD i default
    let (seen, row) := (p.steps.size + 1).fold (fun dot _ (seen, row) =>
      let o := p.outlook fielded dot
      match Std.HashMap.get? seen o with
      | some j => (seen, row.push j)
      | none => (seen.insert o i, row.push i)) (seen, #[])
    (seen, found.push row)) ((∅ : Std.HashMap Outlook Nat), (#[] : Array (Array Nat)))
  found

private def groupBy (ps : Array Production) (size : Nat) (key : Production → Option Nat) :
    Array (List Nat) :=
  ps.size.foldRev (fun i _ acc =>
    match key (ps.getD i default) with
    | none => acc
    | some k => acc.modify k (i :: ·)) (Array.replicate size [])

private def numbering (n : Nat) (names : List String) : Std.HashMap String Nat :=
  (names.foldl (fun (m, i) s => (m.insert s i, i + 1)) (({} : Std.HashMap String Nat), n)).1

def table (g : Grammar) : Table :=
  let (bodies, helpers) := (nameAllRepeats g.rules).run #[]
  let helperRules := helpers.toList.mapIdx fun i body =>
    (helperName i, Rule.alt (.seq (.ref (helperName i)) (.ref (helperName i))) body)
  let rules := bodies ++ helperRules
  let tokens := ((g.extras ++ (rules.flatMap fun (_, r) => tokenNames r)).foldl
    (fun (acc : Array String) t => if acc.contains t then acc else acc.push t) #[endToken])
  let tokenCount := tokens.size
  let names := tokens ++ (rules.map (·.1)).toArray
  let symbolCount := names.size + 1
  let start := names.size
  let tokenIndex := numbering 0 tokens.toList
  let ruleIndex := numbering tokenCount (rules.map (·.1))
  let index (isToken : Bool) (n : String) : Nat :=
    if isToken then tokenIndex.getD n 0 else ruleIndex.getD n 0
  let find (n : String) : Nat := index false n
  let flat (r : Rule) : List Alternative := (flatten index r {} true).eraseDups
  let inlined : Std.HashMap Nat (List Alternative) :=
    rules.foldl (fun m (n, r) => if g.inlined.contains n then m.insert (find n) (flat r) else m) ∅
  let productionsOf (n : String) (r : Rule) : List Production :=
    if g.inlined.contains n then []
    else ((flat r).flatMap fun (steps, w) => inlineSteps inlined steps w).eraseDups.map
      fun (steps, w) => ⟨find n, steps.toArray, w⟩
  let productions : Array Production :=
    (⟨start, #[⟨tokenCount, none, none, none, none⟩], 0⟩ ::
      rules.flatMap fun (n, r) => productionsOf n r).toArray
  let ofRule := groupBy productions symbolCount fun p => some p.lhs
  let first := firstSets productions tokenCount symbolCount
  let show? (n : String) (i : Nat) : Shown :=
    if i < tokenCount then
      if g.hiddenTokens.contains n then .hidden
      else if g.namedTokens.contains n then .named else .anonymous
    else if i < tokenCount + bodies.length ∧ ¬ g.hidden.contains n then .named else .hidden
  let shown := names.mapIdx fun i n => show? n i
  let isHidden (x : Nat) : Bool := tokenCount ≤ x && shown.getD x .hidden == .hidden
  let fielded := settle (growFielded productions isHidden) symbolCount
    (Array.replicate symbolCount false)
  { tokenNames := tokens
    tokenIndex := tokenIndex
    tokenCount := tokenCount
    symbolCount := symbolCount
    firstHelper := tokenCount + bodies.length
    labels := names.mapIdx fun i n => ⟨n, show? n i == .named⟩
    shown := shown
    productions := productions
    ofRule := ofRule
    startingWith := groupBy productions symbolCount fun p => p.steps[0]?.map (·.symbol)
    first := first
    leftmost := (Array.range symbolCount).map
      fun x => leftmostOf productions ofRule first tokenCount symbolCount x
    alike := alikeOf productions fielded
    extras := g.extras.foldl (fun s t => s ||| TokenSet.single (index true t)) 0
    word := index true g.word }

namespace Table

def token (t : Table) (name : String) : Nat := t.tokenIndex.getD name 0

def production (t : Table) (i : Nat) : Production := t.productions.getD i default

def firstOf (t : Table) (symbol : Nat) : TokenSet := t.first.getD symbol 0

end Table

end DocSnapshot.Grammar
