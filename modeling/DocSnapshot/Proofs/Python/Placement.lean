import DocSnapshot.Record.Extraction

/-! Where the grammar lets statements and blocks stand in a tree, and what the nodes of a tree
declare. -/
namespace DocSnapshot.Python

namespace Node
open DocSnapshot.Python.Stmt (isClauseKind)

mutual
/-- A node and all nodes in it, in document order. -/
def preorder : Node → List Node
  | .mk kind named field text row column children =>
    .mk kind named field text row column children :: preorderAll children

def preorderAll : List Node → List Node
  | [] => []
  | n :: rest => preorder n ++ preorderAll rest
end

/-- What a node is to those around it. -/
inductive Role where
  | root
  | block
  | importing
  | definition
  | decorated
  | compound
  | clause
  | other
  deriving DecidableEq, Repr

/-- The role of a node. The clauses of comprehensions are called so too. -/
def role (n : Node) : Role :=
  match n.kind with
  | "module" => .root
  | "block" => .block
  | "import_statement" | "import_from_statement" | "future_import_statement" => .importing
  | "function_definition" | "class_definition" => .definition
  | "decorated_definition" => .decorated
  | "if_statement" | "for_statement" | "while_statement" | "try_statement" | "with_statement"
  | "match_statement" => .compound
  | kind => if isClauseKind kind then .clause else .other

def holdsBlock (n : Node) : Bool := n.preorder.any (·.role = .block)

/-- Whether a child may stand under a node. Statements stand in the module, in blocks and, if they
are definitions, behind decorators; blocks stand in definitions, compound statements and clauses;
clauses with blocks stand in compound statements and clauses or, as cases, in the block of a
match. -/
def admits (n c : Node) : Bool :=
  match c.role with
  | .root => false
  | .importing | .decorated | .compound => c.named && (n.role = .root || n.role = .block)
  | .definition => c.named && (n.role = .root || n.role = .block ||
      n.role = .decorated && c.field = some "definition")
  | .block => c.named && (n.role = .compound || n.role = .clause ||
      n.role = .definition && c.field = some "body")
  | .clause => !c.holdsBlock || c.named && (n.role = .compound || n.role = .clause ||
      n.role = .block && c.kind = "case_clause")
  | .other => true

/-- Whether the children of a node stand where they may; a definition has one body, which is a
block, and decorators have one definition behind them. -/
def wellPlaced (n : Node) : Bool :=
  n.children.all n.admits &&
  (n.role ≠ .definition ||
    (n.childrenIn "body").length ≤ 1 && (n.childrenIn "body").all (·.role = .block)) &&
  (n.role ≠ .decorated || (n.childrenIn "definition").length ≤ 1)

def isModule (root : Node) : Bool := root.role = .root && root.preorder.all wellPlaced

def nameText (n : Node) : String := ((n.child? "name").map text).getD ""

def importedText (c : Node) : String :=
  if c.kind = "aliased_import" then ((c.child? "name").map compact).getD "" else c.compact

def aliasText? (c : Node) : Option String :=
  if c.kind = "aliased_import" then (c.child? "alias").map text else none

def importFrom (module : String) (c : Node) : Record.Import :=
  ⟨.fromModule, module, some c.importedText, c.aliasText?⟩

/-- The imports a node declares: one for each of its names, and one for a wildcard. -/
def declaredImports (n : Node) : List Record.Import :=
  let module := ((n.child? "module_name").map compact).getD ""
  if n.kind = "import_statement" then
    (n.childrenIn "name").map fun c => ⟨.direct, c.importedText, none, c.aliasText?⟩
  else if n.kind = "import_from_statement" then
    (n.childrenIn "name").map (importFrom module) ++
      if n.parts.any (·.kind = "wildcard_import") then [⟨.fromModule, module, some "*", none⟩]
      else []
  else if n.kind = "future_import_statement" then
    (n.childrenIn "name").map (importFrom "__future__")
  else []

/-- The class a node declares, by its name and line. -/
def declaredClass? (n : Node) : Option (String × Nat) :=
  if n.kind = "class_definition" then some (n.nameText, n.row + 1) else none

end Node

/-- The statement of a node by its kind. -/
theorem Stmt.ofNode_eq (n : Node) : ofNode n =
    if n.kind = "import_statement" then .imports (importNames n)
    else if n.kind = "import_from_statement" then ofImportFrom n
    else if n.kind = "future_import_statement" then .importsFrom "__future__" (importNames n)
    else if n.kind = "function_definition" then
      .functionDef (Function.ofNode [] n) (bodyOf n.children)
    else if n.kind = "class_definition" then .classDef (Class.ofNode [] n) (bodyOf n.children)
    else if n.kind = "decorated_definition" then ofDefinition (decoratorsOf n) n.children
    else if n.kind = "expression_statement" then ofExpressionStatement n
    else if isCompoundKind n.kind then .nested (blocksOf n.children)
    else .other := by
  cases n
  rfl

end DocSnapshot.Python
