import DocSnapshot.Python.Literal

/-! The statements and expressions that documentation is drawn from. Whatever is not interpreted is
kept as a dump of its shape. -/
namespace DocSnapshot.Python

/-- Expressions. List, dictionary, tuple and other displays carry their dump. -/
inductive Expr where
  | name (id : String)
  | attribute (value : Expr) (attr : String)
  | constant (value : Literal)
  | list (elements : List Expr) (dump : String)
  | dict (dump : String)
  | tuple (elements : List Expr) (dump : String)
  | other (dump : String)

/-- What an assignment binds. -/
inductive Target where
  | name (id : String)
  | sequence (items : List Target)
  | other

structure ImportName where
  name : String
  asName : Option String
  deriving DecidableEq, Repr

structure Parameter where
  name : String
  typeHint : Option Expr

structure Position where
  line : Nat
  column : Nat
  deriving DecidableEq, Repr

/-- The parameters of a function. The defaults belong to the last positional parameters.
`misplaced` is the first positional parameter without a default behind one with a default. -/
structure Parameters where
  positional : List Parameter := []
  defaults : List Expr := []
  varPositional : Option Parameter := none
  keywordOnly : List (Parameter × Option Expr) := []
  varKeyword : Option Parameter := none
  misplaced : Option Position := none

structure Function where
  name : String
  line : Nat
  decorators : List Expr
  isAsync : Bool
  parameters : Parameters
  returns : Option Expr

structure Class where
  name : String
  line : Nat
  decorators : List Expr
  bases : List Expr

/-- Statements. A compound statement is reduced to the blocks in it. -/
inductive Stmt where
  | imports (names : List ImportName)
  | importsFrom (module : String) (names : List ImportName)
  | functionDef (head : Function) (body : List Stmt)
  | classDef (head : Class) (body : List Stmt)
  | assign (line : Nat) (targets : List Target) (value : Expr)
  | expr (value : Expr)
  | nested (blocks : List (List Stmt))
  | other

namespace Stmt

mutual
def walk : Stmt → List Stmt
  | .functionDef f body => .functionDef f body :: walkAll body
  | .classDef c body => .classDef c body :: walkAll body
  | .nested blocks => .nested blocks :: walkBlocks blocks
  | s => [s]

def walkAll : List Stmt → List Stmt
  | [] => []
  | s :: rest => walk s ++ walkAll rest

def walkBlocks : List (List Stmt) → List Stmt
  | [] => []
  | b :: rest => walkAll b ++ walkBlocks rest
end

def misplaced? (body : List Stmt) : Option Position :=
  (walkAll body).findSome? fun
    | .functionDef f _ => f.parameters.misplaced
    | _ => none

end Stmt

end DocSnapshot.Python
