import DocSnapshot.Python.Docstring
import DocSnapshot.Python.Module
import DocSnapshot.Record.Basic
import DocSnapshot.Text.Casing
import DocSnapshot.Text.Utf8

/-! From sources to records. Extraction never fails: a file that cannot be read becomes a record of
what is wrong with it. -/
namespace DocSnapshot.Record
open DocSnapshot.Python (Expr Literal Parameter Parameters Stmt Target)

def resolveName : Expr → String
  | .name id => id
  | .attribute value attr => resolveName value ++ "." ++ attr
  | .constant l => l.display
  | .tuple _ dump | .list _ dump | .dict dump | .other dump => dump

def valueRepr : Expr → String
  | .constant l => l.repr
  | .list .. => "[...]"
  | .dict _ => "\x7b...\x7d"
  | e => resolveName e

def docstring? : List Stmt → Option String
  | .expr (.constant (.str doc)) :: _ => some (Python.Docstring.clean doc)
  | _ => none

def isProperty : Expr → Bool
  | .name id => id = "property"
  | .attribute _ attr => attr = "property"
  | _ => false

/-- Positional parameters from the `i`-th on, where the defaults belong to those from `first` on. -/
def positionalArguments (first : Nat) (defaults : List Expr) :
    List Parameter → Nat → List Argument
  | [], _ => []
  | p :: rest, i =>
    let default := if first ≤ i then defaults[i - first]? else none
    .positional p.name (p.typeHint.map resolveName) default.isSome (default.map valueRepr) ::
      positionalArguments first defaults rest (i + 1)

/-- The arguments in declaration order. Defaults belong to the last positional parameters, and the
receiver of a method is left out after they have been matched. -/
def Argument.ofParameters (ps : Parameters) (hasReceiver : Bool) : List Argument :=
  let first := ps.positional.length - ps.defaults.length
  let positional := positionalArguments first ps.defaults ps.positional 0
  let star := ps.varPositional.map fun p =>
    Argument.varPositional ("*" ++ p.name) (p.typeHint.map resolveName)
  let keywords := ps.keywordOnly.map fun (p, d) =>
    Argument.keywordOnly p.name (p.typeHint.map resolveName) d.isSome (d.map valueRepr)
  let doubleStar := ps.varKeyword.map fun p =>
    Argument.varKeyword ("**" ++ p.name) (p.typeHint.map resolveName)
  (if hasReceiver then positional.drop 1 else positional) ++ star.toList ++ keywords ++
    doubleStar.toList

namespace Function

def ofDefinition (f : Python.Function) (body : List Stmt) (isMethod : Bool) : Function :=
  let decorators := f.decorators.map resolveName
  let flags : MethodFlags :=
    ⟨decorators.contains "classmethod", decorators.contains "staticmethod",
      f.name.toList.head? = some '_'⟩
  { name := f.name
    docstring := docstring? body
    line := f.line
    arguments := Argument.ofParameters f.parameters (isMethod && !flags.isStaticMethod)
    decorators := decorators
    isAsync := f.isAsync
    isMethod := isMethod
    returnType := f.returns.map resolveName
    method := if isMethod then some flags else none }

end Function

namespace Class

def methodsOf (body : List Stmt) : List (Function × List Expr) :=
  body.filterMap fun
    | .functionDef f b => some (Function.ofDefinition f b true, f.decorators)
    | _ => none

def ofDefinition (c : Python.Class) (body : List Stmt) : Class :=
  let methods := methodsOf body
  { name := c.name
    docstring := docstring? body
    line := c.line
    bases := c.bases.map resolveName
    decorators := c.decorators.map resolveName
    methods := methods.map (·.1)
    properties := (methods.filter (·.2.any isProperty)).map fun (m, _) =>
      ⟨m.name, m.docstring, m.line⟩ }

end Class

def importsOf : Stmt → List Import
  | .imports names => names.map fun n => ⟨.direct, n.name, none, n.asName⟩
  | .importsFrom module names =>
    names.map fun n => ⟨.fromModule, module, some n.name, n.asName⟩
  | _ => []

/-- Whether a name is written like a constant: some upper-case letter and no lower-case one. -/
def isConstantName (name : String) : Bool :=
  name.toList.any Text.isUppercase && !name.toList.any Text.isLowercase

def elements? : Expr → Option (List Expr)
  | .tuple es _ | .list es _ => some es
  | _ => none

mutual
/-- The constants a target binds. A sequence takes the value apart where the lengths agree;
otherwise each of its names is given the whole value. -/
def constantsOf (line : Nat) (value : Expr) : Target → List Constant
  | .name id => if isConstantName id then [⟨id, line, valueRepr value⟩] else []
  | .sequence items =>
    match elements? value with
    | some es =>
      if es.length = items.length then constantsOfEach line es items
      else constantsOfAll line value items
    | none => constantsOfAll line value items
  | .other => []

def constantsOfEach (line : Nat) : List Expr → List Target → List Constant
  | v :: vs, t :: ts => constantsOf line v t ++ constantsOfEach line vs ts
  | _, _ => []

def constantsOfAll (line : Nat) (value : Expr) : List Target → List Constant
  | [] => []
  | t :: ts => constantsOf line value t ++ constantsOfAll line value ts
end

namespace Structure

def ofBody (body : List Stmt) : Structure :=
  let everywhere := Stmt.walkAll body
  { docstring := docstring? body
    imports := everywhere.flatMap importsOf
    classes := everywhere.filterMap fun
      | .classDef c b => some (Class.ofDefinition c b)
      | _ => none
    functions := body.filterMap fun
      | .functionDef f b => some (Function.ofDefinition f b false)
      | _ => none
    constants := body.flatMap fun
      | .assign line targets value => targets.flatMap (constantsOf line value)
      | _ => [] }

def ofSource (source : String) : Except Python.ParseError Structure :=
  let cs := source.toList
  (Python.parse (if cs.head? = some '\ufeff' then String.ofList cs.tail else source)).map ofBody

end Structure

namespace Body

def ofSource (source : String) : Body :=
  match Structure.ofSource source with
  | .ok s => .structure s
  | .error e => .failed e.message

def ofBytes (bytes : List UInt8) : Body :=
  match Text.Utf8.decode (Text.Utf8.dropMark bytes) with
  | .ok source => ofSource source
  | .error e => .failed ("file is not valid UTF-8: " ++ e.message)

end Body

end DocSnapshot.Record
