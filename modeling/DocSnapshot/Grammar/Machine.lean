import DocSnapshot.Grammar.Automaton
import DocSnapshot.Grammar.Tree

/-! A parser that follows every reading the item sets leave open. Readings that meet in one state
at one place share the rest of their work; of two ways to the same tree the heavier is kept. -/
namespace DocSnapshot.Grammar

/-- A frame of the shared stack: a state, a place in the text, and the ways it was reached. -/
inductive Frame (σ : Type) where
  | mk (id state pos height : Nat) (weight : Int) (links : List (Tree σ × Frame σ))

namespace Frame

variable {σ : Type}

def id : Frame σ → Nat
  | .mk i _ _ _ _ _ => i

def state : Frame σ → Nat
  | .mk _ s _ _ _ _ => s

def pos : Frame σ → Nat
  | .mk _ _ p _ _ _ => p

def height : Frame σ → Nat
  | .mk _ _ _ h _ _ => h

def weight : Frame σ → Int
  | .mk _ _ _ _ w _ => w

def links : Frame σ → List (Tree σ × Frame σ)
  | .mk _ _ _ _ _ l => l

private def linkWeight (l : Tree σ × Frame σ) : Int := l.2.weight + l.1.weight

private def maxLinks : Nat := 8

/-- Adds a way of reaching a frame. Interchangeable trees from one frame are one way, and the
heavier tree stays; if they come from frames that agree, those frames are joined. -/
def addLink [BEq σ] : Nat → Frame σ → Tree σ × Frame σ → Frame σ
  | 0, f, _ => f
  | fuel + 1, .mk i s p h w links, link =>
    let rec go : List (Tree σ × Frame σ) → Option (List (Tree σ × Frame σ) × Int)
      | [] => none
      | (tree, below) :: rest =>
        if tree.interchangeable link.1 then
          if below.id == link.2.id then
            if tree.weight < link.1.weight then some (link :: rest, linkWeight link)
            else some ((tree, below) :: rest, w)
          else if below.state == link.2.state && below.pos == link.2.pos then
            let joined := link.2.links.foldl (fun f l => addLink fuel f l) below
            some ((tree, joined) :: rest, max w (linkWeight link))
          else (go rest).map fun (ls, w) => ((tree, below) :: ls, w)
        else (go rest).map fun (ls, w) => ((tree, below) :: ls, w)
    match go links with
    | some (ls, w) => .mk i s p h w ls
    | none =>
      if links.length < maxLinks then .mk i s p h (max w (linkWeight link)) (links ++ [link])
      else .mk i s p h w links

end Frame

/-- One reading in progress. A reading is stuck when no action fits the next token. -/
structure Reading (σ : Type) where
  top : Frame σ
  layout : Option σ
  stuck : Bool
  ended : Bool

namespace Reading

variable {σ : Type}

def active (r : Reading σ) : Bool := !r.stuck && !r.ended

def join? [BEq σ] (a b : Reading σ) : Option (Reading σ) :=
  if a.active && b.active && a.top.state == b.top.state && a.top.pos == b.top.pos
      && a.layout == b.layout then
    some { a with top := b.top.links.foldl (fun f l => f.addLink (a.top.height + 1) l) a.top }
  else none

/-- Puts a reading in its place among those kept so far: a stuck one gives way to any other, and
heavier ones come first. `weight` and `stuck` describe the reading the search began with. -/
def place [BEq σ] (weight : Int) (stuck : Bool) (r : Reading σ) :
    List (Reading σ) → List (Reading σ)
  | [] => [r]
  | k :: rest =>
    if !k.stuck && stuck then k :: rest
    else if k.stuck && !stuck then place weight stuck r rest
    else match k.join? r with
      | some joined => joined :: rest
      | none =>
        if k.top.weight < weight then r :: place weight stuck k rest
        else k :: place weight stuck r rest

def maxKept : Nat := 6

def maxOpen : Nat := 10

def condense [BEq σ] (rs : Array (Reading σ)) : Array (Reading σ) :=
  let kept := rs.foldl (fun kept r =>
    if r.ended then kept else place r.top.weight r.stuck r kept) []
  ((kept.take maxKept).filter (!·.stuck)).toArray

end Reading

private structure Descent (σ : Type) where
  frame : Frame σ
  trees : List (Tree σ)
  solid : Nat

private def maxDescents : Nat := 64

private def Descent.down {σ : Type} (d : Descent σ) (l : Tree σ × Frame σ) : Descent σ :=
  ⟨l.2, l.1 :: d.trees, if l.1.isExtra then d.solid else d.solid + 1⟩

private def descend {σ : Type} (n : Nat) (ds : List (Descent σ)) :
    List (Descent σ) × List (Descent σ) :=
  -- The first link of a frame continues in place, the others start new ways at the end.
  let rec go : List (Descent σ) → Nat → List (Descent σ) × List (Descent σ) × List (Descent σ)
    | [], _ => ([], [], [])
    | d :: rest, size =>
      if d.solid = n then
        let (done, here, later) := go rest (size - 1)
        (d :: done, here, later)
      else match d.frame.links with
        | [] => go rest (size - 1)
        | l :: others =>
          let more := (others.take (maxDescents - size)).map d.down
          let (done, here, later) := go rest (size + more.length)
          (done, d.down l :: here, more ++ later)
  let (done, here, later) := go ds ds.length
  (done, here ++ later)

private def descents {σ : Type} (n : Nat) : Nat → List (Descent σ) → List (Descent σ)
  | 0, _ => []
  | _, [] => []
  | fuel + 1, ds =>
    let (done, going) := descend n ds
    done ++ descents n fuel going

private def groupDescents {σ : Type} : List (Descent σ) → List (Frame σ × List (List (Tree σ)))
  | [] => []
  | ds => ds.foldl (fun groups d =>
      if groups.any (·.1.id == d.frame.id) then
        groups.map fun (f, ways) => if f.id == d.frame.id then (f, ways ++ [d.trees]) else (f, ways)
      else groups ++ [(d.frame, [d.trees])]) []

private def splitTrailing {σ : Type} (trees : List (Tree σ)) : List (Tree σ) × List (Tree σ) :=
  let extras := (trees.reverse.takeWhile (·.isExtra)).reverse
  (trees.take (trees.length - extras.length), extras)

private def supersedes {σ : Type} (a b : Tree σ) : Bool :=
  -- It is heavier, or as heavy and smaller.
  a.weight < b.weight || (a.weight == b.weight && Tree.compare a b == .gt)

structure Machine (σ : Type) where
  readings : Array (Reading σ)
  fresh : Nat
  accepted : Option (Tree σ)
  reached : Nat

namespace Machine

variable {σ : Type} [BEq σ] (t : Table)

private def push (id : Nat) (below : Frame σ) (tree : Tree σ) (state : Nat) : Frame σ :=
  .mk id state tree.stop (below.height + 1) (below.weight + tree.weight) [(tree, below)]

private def admitReading (m : Machine σ) (v : Nat) (r : Reading σ) : Machine σ :=
  let rec go : List Nat → Option (Array (Reading σ))
    | [] => none
    | j :: js =>
      if j = v then go js
      else match m.readings[j]? with
        | none => none
        | some k =>
          match k.join? r with
          | some joined => some (m.readings.set! j joined)
          | none => go js
  match go (List.range m.readings.size) with
  | some rs => { m with readings := rs }
  | none => { m with readings := m.readings.push r }

private def reduce (m : Machine σ) (v production : Nat) : StateM Automaton (Machine σ) := do
  match m.readings[v]? with
  | none => return m
  | some r =>
    let n := (t.production production).steps.size
    let groups := groupDescents (descents n (r.top.height + 1) [⟨r.top, [], 0⟩])
    groups.foldlM (fun m (base, ways) => do
      if Reading.maxOpen < m.readings.size then return m
      let candidates := ways.map fun trees =>
        let (children, extras) := splitTrailing trees
        (Tree.ofProduction t production children base.pos, extras)
      match candidates with
      | [] => return m
      | first :: others =>
        let (tree, extras) := others.foldl (fun best c =>
          if supersedes best.1 c.1 then c else best) first
        let state ← Automaton.move t base.state tree.symbol
        let top := extras.foldl (fun (f, id) e => (push id f e state, id + 1))
          (push m.fresh base tree state, m.fresh + 1)
        return admitReading { m with fresh := top.2 } v
          { top := top.1, layout := r.layout, stuck := false, ended := false }) m

private def renumber (m : Machine σ) (i v : Nat) : Machine σ :=
  match m.readings[i]? with
  | none => m
  | some r => { m with readings := (m.readings.set! v r).eraseIdxIfInBounds i }

private def accept (m : Machine σ) (v : Nat) : Machine σ :=
  match m.readings[v]? with
  | none => m
  | some r =>
    let trees := (wholeWays r.top.height [⟨r.top, [], 0⟩]).map (·.trees)
    let accepted := trees.foldl (fun best trees =>
      match trees.find? (!·.isExtra) with
      | none => best
      | some root =>
        let children := trees.flatMap fun c => if c.isExtra then [c] else c.children
        let whole : Tree σ := match root with
          | .node p _ s _ _ _ _ w => .node p children s
              ((children.head?.map Tree.start).getD r.top.pos)
              ((children.getLast?.map Tree.stop).getD r.top.pos)
              ((children.head?.map Tree.before).getD r.top.pos) children.length w
          | leaf => leaf
        match best with
        | none => some whole
        | some b => if supersedes b whole then some whole else some b) m.accepted
    { m with accepted := accepted, readings := m.readings.set! v { r with ended := true } }
where
  /-- Every way down to the bottom. -/
  wholeWays : Nat → List (Descent σ) → List (Descent σ)
    | 0, ds => ds
    | fuel + 1, ds => wholeWays fuel (ds.flatMap fun d =>
        match d.frame.links with
        | [] => [d]
        | ls => ls.map d.down)

private def shift (m : Machine σ) (v : Nat) (l : Lexeme σ) (extra : Bool) (state : Nat) :
    Machine σ :=
  match m.readings[v]? with
  | none => m
  | some r =>
    let top := push m.fresh r.top (.leaf l extra) state
    { m with
      fresh := m.fresh + 1
      readings := m.readings.set! v { r with top := top, layout := l.layout.or r.layout } }

private def markStuck (m : Machine σ) (v : Nat) : Machine σ :=
  { m with readings := m.readings.modify v fun r => { r with stuck := true } }

private def feed (isKeyword : Nat → Bool) (l : Lexeme σ) (m : Machine σ) (v : Nat) :
    Nat → StateM Automaton (Machine σ)
  -- A word that fits nowhere as a keyword is tried as a plain word.
  | 0 => return markStuck m v
  | fuel + 1 => do
    match m.readings[v]? with
    | none => return m
    | some r =>
      let state := (← get).state r.top.state
      let actions := state.actions t l.token
      if actions.reduce.contains 0 then return accept m v
      let mut now := m
      let mut last : Option Nat := none
      for p in actions.reduce do
        let size := now.readings.size
        now ← reduce t now v p
        if size < now.readings.size then last := some size
      if actions.shift then
        let next ← Automaton.move t r.top.state l.token
        return shift now v l false next
      if actions.reduce.isEmpty && t.extras.has l.token then
        return shift now v l true r.top.state
      match last with
      | some i => feed isKeyword l (renumber now i v) v fuel
      | none =>
        if isKeyword l.token && state.valid.has t.word then
          feed isKeyword { l with token := t.word } now v fuel
        else return markStuck now v

/-- How a text is cut into tokens: given the tokens that fit, the state of the layout reader and a
place, the next token. -/
structure Lexer (σ : Type) where
  next : TokenSet → Option σ → Nat → Option (Lexeme σ)
  isKeyword : Nat → Bool
  length : Nat

private def advance (lexer : Lexer σ) (m : Machine σ) (v : Nat) : StateM Automaton (Machine σ) := do
  match m.readings[v]? with
  | none => return m
  | some r =>
    let valid := ((← get).state r.top.state).valid ||| t.extras
    match lexer.next valid r.layout r.top.pos with
    | none => return markStuck m v
    | some l => feed t lexer.isKeyword l m v (8 * (lexer.length + r.top.height) + 64)

private def catchUp (lexer : Lexer σ) (v : Nat) : Nat → Machine σ → StateM Automaton (Machine σ)
  | 0, m => return m
  | fuel + 1, m => do
    match m.readings[v]? with
    | none => return m
    | some r =>
      if !r.active then return m
      let m ← advance t lexer m v
      match m.readings[v]? with
      | none => return m
      | some r =>
        if m.reached < r.top.pos || (0 < v && r.top.pos == m.reached) then
          return { m with reached := r.top.pos }
        else catchUp lexer v fuel m

private def round (lexer : Lexer σ) (budget : Nat) : Nat → Nat → Machine σ →
    StateM Automaton (Machine σ)
  | 0, _, m => return m
  | fuel + 1, v, m => do
    if v < m.readings.size then
      let m ← catchUp t lexer v budget m
      round lexer budget fuel (v + 1) m
    else return m

private def rounds (lexer : Lexer σ) (budget : Nat) : Nat → Machine σ → StateM Automaton (Machine σ)
  | 0, m => return m
  | fuel + 1, m => do
    if m.readings.isEmpty then return m
    let m ← round t lexer budget budget 0 m
    rounds lexer budget fuel { m with readings := Reading.condense m.readings }

def start : Machine σ :=
  ⟨#[⟨.mk 0 0 0 0 0 [], none, false, false⟩], 1, none, 0⟩

end Machine

def Table.parse {σ : Type} [BEq σ] (t : Table) (lexer : Machine.Lexer σ) : Option (Tree σ) :=
  let budget := 64 * (lexer.length + 8)
  (((Machine.rounds t lexer budget budget Machine.start).run (Automaton.first t)).1).accepted

end DocSnapshot.Grammar
