import DocSnapshot.Python.Node
import DocSnapshot.Python.Statement

/-! From concrete trees to statements. -/
namespace DocSnapshot.Python

namespace Node

def isPart (n : Node) : Bool := n.named && n.kind ≠ "comment"

/-- The parts of a node. -/
def parts (n : Node) : List Node := n.children.filter isPart

def child? (n : Node) (field : String) : Option Node :=
  n.children.find? fun c => c.field = some field

def childrenIn (n : Node) (field : String) : List Node :=
  n.children.filter fun c => c.field = some field

def compact (n : Node) : String := String.ofList (n.text.toList.filter (!Text.isBlank ·))

def position (n : Node) : Position := ⟨n.row + 1, n.column + 1⟩

mutual
/-- The shape of a node: `kind(part, field=part, ...)`, or its kind and text where it has no parts.
Other children appear only if they have a role, by their text. -/
def dump : Node → String
  | .mk kind _ _ text _ _ children =>
    match dumpParts children with
    | [] => kind ++ "(" ++ Text.quoted text ++ ")"
    | ps => kind ++ "(" ++ String.intercalate ", " ps ++ ")"

def dumpParts : List Node → List String
  | [] => []
  | c :: rest =>
    if c.isPart then
      (match c.field with
        | some f => f ++ "=" ++ dump c
        | none => dump c) :: dumpParts rest
    else match c.field with
      | some f => (f ++ "=" ++ Text.quoted c.text) :: dumpParts rest
      | none => dumpParts rest
end

end Node

namespace Expr

def ofString (n : Node) : Expr :=
  match StringLiteral.parse? n.text with
  | some s =>
    if s.formatted then .other n.dump
    else if s.bytes then .constant (.bytes s.value)
    else .constant (.str s.value)
  | none => .other n.dump

def ofStrings (n : Node) : Expr :=
  match n.parts.mapM fun p => StringLiteral.parse? p.text with
  | some (s :: rest) =>
    if (s :: rest).all fun p => !p.formatted && p.bytes = s.bytes then
      let value := String.join ((s :: rest).map (·.value))
      if s.bytes then .constant (.bytes value) else .constant (.str value)
    else .other n.dump
  | _ => .other n.dump

def readParts (cs : List (Node × Expr)) : List Expr :=
  (cs.filter (·.1.isPart)).map (·.2)

mutual
/-- The expression of a node. Parentheses vanish; forms that are not interpreted are dumped. -/
def ofNode : Node → Expr
  | .mk kind named field text row column children =>
    let n : Node := .mk kind named field text row column children
    match kind with
    | "identifier" => .name text
    | "attribute" =>
      match (ofNodes children).find? (·.1.field = some "object"), n.child? "attribute" with
      | some (_, object), some attr => .attribute object attr.text
      | _, _ => .other n.dump
    | "member_type" =>
      match (ofNodes children).filter (·.1.isPart) with
      | [(_, object), (attr, _)] =>
        if attr.kind = "identifier" then .attribute object attr.text else .other n.dump
      | _ => .other n.dump
    | "string" => ofString n
    | "concatenated_string" => ofStrings n
    | "integer" => .constant (Literal.ofInteger text)
    | "float" => .constant (Literal.ofFloat text)
    | "true" => .constant (.bool true)
    | "false" => .constant (.bool false)
    | "none" => .constant .none
    | "ellipsis" => .constant .ellipsis
    | "list" => .list (readParts (ofNodes children)) n.dump
    | "dictionary" => .dict n.dump
    | "tuple" => .tuple (readParts (ofNodes children)) n.dump
    | "expression_list" => .tuple (readParts (ofNodes children)) n.dump
    | "parenthesized_expression" =>
      match readParts (ofNodes children) with
      | [inner] => inner
      | _ => .other n.dump
    | "type" =>
      match readParts (ofNodes children) with
      | [inner] => inner
      | _ => .other n.dump
    | _ => .other n.dump

def ofNodes : List Node → List (Node × Expr)
  | [] => []
  | n :: rest => (n, ofNode n) :: ofNodes rest
end

end Expr

namespace Target

def isSequenceKind (kind : String) : Bool :=
  ["pattern_list", "tuple_pattern", "list_pattern", "tuple", "list",
    "expression_list"].contains kind

mutual
def ofNode : Node → Target
  | .mk kind _ _ text _ _ children =>
    if kind = "identifier" then .name text
    else if isSequenceKind kind then .sequence (ofParts children)
    else if kind = "parenthesized_expression" then
      match ofParts children with
      | [inner] => inner
      | _ => .other
    else .other

def ofParts : List Node → List Target
  | [] => []
  | n :: rest => if n.isPart then ofNode n :: ofParts rest else ofParts rest
end

end Target

namespace Parameters

/-- One entry of a parameter list. -/
inductive Entry where
  | plain (parameter : Parameter) (default : Option Expr) (position : Position)
  | star (parameter : Parameter)
  | doubleStar (parameter : Parameter)
  | keywordMark
  | nothing

private def dropStars (cs : List Char) : List Char := cs.dropWhile (· = '*')

def splatName (n : Node) : String :=
  match n.parts with
  | name :: _ => name.text
  | [] => String.ofList (Text.trim (dropStars n.text.toList))

namespace Entry

def ofTyped (n : Node) : Entry :=
  let typeHint := (n.child? "type").map Expr.ofNode
  match n.parts with
  | [] => .nothing
  | inner :: _ =>
    if inner.kind = "list_splat_pattern" then .star ⟨splatName inner, typeHint⟩
    else if inner.kind = "dictionary_splat_pattern" then .doubleStar ⟨splatName inner, typeHint⟩
    else .plain ⟨inner.text, typeHint⟩ none n.position

def ofDefault (n : Node) : Entry :=
  .plain ⟨((n.child? "name").map (·.text)).getD "", (n.child? "type").map Expr.ofNode⟩
    ((n.child? "value").map Expr.ofNode) n.position

def ofNode (n : Node) : Entry :=
  match n.kind with
  | "identifier" => .plain ⟨n.text, none⟩ none n.position
  | "typed_parameter" => ofTyped n
  | "default_parameter" => ofDefault n
  | "typed_default_parameter" => ofDefault n
  | "list_splat_pattern" => .star ⟨splatName n, none⟩
  | "dictionary_splat_pattern" => .doubleStar ⟨splatName n, none⟩
  | "keyword_separator" => .keywordMark
  | _ => .nothing

end Entry

def addPositional (ps : Parameters) (p : Parameter) (default : Option Expr)
    (position : Position) : Parameters :=
  match default with
  | some d => { ps with positional := ps.positional ++ [p], defaults := ps.defaults ++ [d] }
  | none =>
    let misplaced := if ps.defaults.isEmpty then none else some position
    { ps with positional := ps.positional ++ [p], misplaced := ps.misplaced.or misplaced }

def add (state : Parameters × Bool) (entry : Entry) : Parameters × Bool :=
  let (ps, keywordOnly) := state
  match entry with
  | .plain p default position =>
    if keywordOnly then ({ ps with keywordOnly := ps.keywordOnly ++ [(p, default)] }, true)
    else (ps.addPositional p default position, false)
  | .star p => ({ ps with varPositional := some p }, true)
  | .doubleStar p => ({ ps with varKeyword := some p }, keywordOnly)
  | .keywordMark => (ps, true)
  | .nothing => (ps, keywordOnly)

def ofNode (n : Node) : Parameters := ((n.parts.map Entry.ofNode).foldl add ({}, false)).1

end Parameters

namespace Function

def ofNode (decorators : List Expr) (n : Node) : Function where
  name := ((n.child? "name").map (·.text)).getD ""
  line := n.row + 1
  decorators := decorators
  isAsync := n.children.any (·.kind = "async")
  parameters := ((n.child? "parameters").map Parameters.ofNode).getD {}
  returns := (n.child? "return_type").map Expr.ofNode

end Function

namespace Class

def basesOf (arguments : Node) : List Expr :=
  (arguments.parts.filter fun a =>
    a.kind ≠ "keyword_argument" && a.kind ≠ "dictionary_splat").map Expr.ofNode

def ofNode (decorators : List Expr) (n : Node) : Class where
  name := ((n.child? "name").map (·.text)).getD ""
  line := n.row + 1
  decorators := decorators
  bases := ((n.child? "superclasses").map basesOf).getD []

end Class

namespace Stmt

def importName (n : Node) : ImportName :=
  if n.kind = "aliased_import" then
    ⟨((n.child? "name").map (·.compact)).getD "", (n.child? "alias").map (·.text)⟩
  else ⟨n.compact, none⟩

def importNames (n : Node) : List ImportName := (n.childrenIn "name").map importName

def ofImportFrom (n : Node) : Stmt :=
  let wildcard := if n.parts.any (·.kind = "wildcard_import") then [⟨"*", none⟩] else []
  .importsFrom (((n.child? "module_name").map (·.compact)).getD "") (importNames n ++ wildcard)

/-- The right sides of a chain of assignments, innermost last, with the targets on the way. -/
def ofAssignment (line : Nat) : Node → List Target → Stmt
  | .mk kind named field text row column children, targets =>
    let n : Node := .mk kind named field text row column children
    if (n.child? "type").isSome then .other
    else match n.child? "left" with
      | none => .other
      | some left => next line (targets ++ [Target.ofNode left]) children
where
  /-- Continues at the first right side. -/
  next (line : Nat) (targets : List Target) : List Node → Stmt
    | [] => .other
    | c :: rest =>
      if c.field = some "right" then
        if c.kind = "assignment" then ofAssignment line c targets
        else .assign line targets (Expr.ofNode c)
      else next line targets rest

def ofExpressionStatement (n : Node) : Stmt :=
  match n.parts with
  | [single] =>
    if single.kind = "assignment" then ofAssignment (single.row + 1) single []
    else .expr (Expr.ofNode single)
  | _ => .other

def decoratorsOf (n : Node) : List Expr :=
  (n.parts.filter (·.kind = "decorator")).map fun d =>
    match d.parts with
    | e :: _ => Expr.ofNode e
    | [] => .other d.dump

def isCompoundKind (kind : String) : Bool :=
  ["if_statement", "for_statement", "while_statement", "try_statement", "with_statement",
    "match_statement", "case_clause"].contains kind

def isClauseKind (kind : String) : Bool := "_clause".toList.isSuffixOf kind.toList

mutual
def ofNode : Node → Stmt
  | .mk kind named field text row column children =>
    let n : Node := .mk kind named field text row column children
    if kind = "import_statement" then .imports (importNames n)
    else if kind = "import_from_statement" then ofImportFrom n
    else if kind = "future_import_statement" then .importsFrom "__future__" (importNames n)
    else if kind = "function_definition" then .functionDef (Function.ofNode [] n) (bodyOf children)
    else if kind = "class_definition" then .classDef (Class.ofNode [] n) (bodyOf children)
    else if kind = "decorated_definition" then ofDefinition (decoratorsOf n) children
    else if kind = "expression_statement" then ofExpressionStatement n
    else if isCompoundKind kind then .nested (blocksOf children)
    else .other

def ofDefinition (decorators : List Expr) : List Node → Stmt
  | [] => .other
  | c :: rest =>
    if c.field = some "definition" then
      if c.kind = "function_definition" then .functionDef (Function.ofNode decorators c) (ofBody c)
      else if c.kind = "class_definition" then .classDef (Class.ofNode decorators c) (ofBody c)
      else .other
    else ofDefinition decorators rest

def ofBody : Node → List Stmt
  | .mk _ _ _ _ _ _ children => bodyOf children

def bodyOf : List Node → List Stmt
  | [] => []
  | c :: rest => if c.field = some "body" then ofBlock c else bodyOf rest

def ofBlock : Node → List Stmt
  | .mk _ _ _ _ _ _ children => ofParts children

def ofParts : List Node → List Stmt
  | [] => []
  | c :: rest => if c.isPart then ofNode c :: ofParts rest else ofParts rest

def blocksOf : List Node → List (List Stmt)
  | [] => []
  | c :: rest =>
    if c.isPart then
      if c.kind = "block" then ofBlock c :: blocksOf rest
      else if isClauseKind c.kind then clauseBlocks c ++ blocksOf rest
      else blocksOf rest
    else blocksOf rest

def clauseBlocks : Node → List (List Stmt)
  | .mk _ _ _ _ _ _ children => blocksOf children
end

end Stmt

end DocSnapshot.Python
