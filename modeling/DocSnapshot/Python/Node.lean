import DocSnapshot.Python.Lexer

/-! The concrete tree of a source: what each stretch of text is, without the hidden symbols of the
grammar. -/
namespace DocSnapshot.Python
open DocSnapshot.Grammar (Table Label Shown Step)

/-- A node of the concrete tree. Rows and columns count from zero, columns in bytes. `field` is the
role the node plays in its parent. -/
inductive Node where
  | mk (kind : String) (named : Bool) (field : Option String) (text : String)
      (row column : Nat) (children : List Node)

namespace Node

def kind : Node → String
  | .mk k _ _ _ _ _ _ => k

def named : Node → Bool
  | .mk _ n _ _ _ _ _ => n

def field : Node → Option String
  | .mk _ _ f _ _ _ _ => f

def text : Node → String
  | .mk _ _ _ t _ _ _ => t

def row : Node → Nat
  | .mk _ _ _ _ r _ _ => r

def column : Node → Nat
  | .mk _ _ _ _ _ c _ => c

def children : Node → List Node
  | .mk _ _ _ _ _ _ cs => cs

def leaf (kind text : String) (field : Option String) (row column : Nat) : Node :=
  .mk kind true field text row column []

def branch (kind text : String) (field : Option String) (row column : Nat)
    (children : List Node) : Node :=
  .mk kind true field text row column children

@[simp] theorem children_leaf (kind text : String) (field : Option String) (row column : Nat) :
    (leaf kind text field row column).children = [] := rfl

@[simp] theorem children_branch (kind text : String) (field : Option String) (row column : Nat)
    (cs : List Node) : (branch kind text field row column cs).children = cs := rfl

private structure Place where
  row : Nat
  column : Nat

private def places (text : Array Char) : Array Place :=
  (text.foldl (fun (acc, p) c =>
    let q : Place := if c = '\n' then ⟨p.row + 1, 0⟩ else ⟨p.row, p.column + c.utf8Size⟩
    (acc.push q, q)) (#[⟨0, 0⟩], ⟨0, 0⟩)).1

private structure Source where
  text : Array Char
  places : Array Place

private def Source.node (s : Source) (label : Label) (field : Option String) (start stop : Nat)
    (children : List Node) : Node :=
  let p := s.places.getD start ⟨0, 0⟩
  .mk label.kind label.named field (String.ofList (s.text.extract start stop).toList)
    p.row p.column children

mutual
private def ofTree {σ : Type} (t : Table) (s : Source) (step : Option Step)
    (field : Option String) : Grammar.Tree σ → List Node
  | .leaf l extra =>
    let label := (step.bind (·.label)).getD (t.labels.getD l.token ⟨"", false⟩)
    let field := if extra then none else (step.bind (·.field)).or field
    if (step.bind (·.label)).isSome || t.shown.getD l.token .hidden ≠ .hidden then
      [s.node label field l.start l.stop []]
    else []
  | .node p cs symbol start stop _ _ _ =>
    let label := (step.bind (·.label)).getD (t.labels.getD symbol ⟨"", false⟩)
    let field := (step.bind (·.field)).or field
    let steps := (t.production p).steps.toList
    if (step.bind (·.label)).isSome || t.shown.getD symbol .hidden ≠ .hidden then
      [s.node label field start stop (ofTrees t s steps none cs)]
    else ofTrees t s steps field cs

private def ofTrees {σ : Type} (t : Table) (s : Source) (steps : List Step)
    (field : Option String) : List (Grammar.Tree σ) → List Node
  -- The steps skip the extras.
  | [] => []
  | c :: cs =>
    if c.isExtra then ofTree t s none field c ++ ofTrees t s steps field cs
    else ofTree t s steps.head? field c ++ ofTrees t s steps.tail field cs
end

def parse? (source : String) : Option Node :=
  let text := source.toList.toArray
  (table.parse (lexer text)).bind fun tree =>
    (ofTree table ⟨text, places text⟩ none none tree).head?

end Node

end DocSnapshot.Python
