import DocSnapshot.Python.Lowering
import DocSnapshot.Python.Nesting

/-! Whole source files. -/
namespace DocSnapshot.Python

/-- Why a source is refused. Where the grammar rejects a source is not said. -/
inductive ParseError where
  | tooDeep (position : Position)
  | rejected
  | misplacedParameter (position : Position)
  deriving DecidableEq, Repr

namespace ParseError

def reason : ParseError → String
  | .tooDeep _ => "too many nested expressions"
  | .rejected => "<syntax error>"
  | .misplacedParameter _ => "parameter without a default follows parameter with a default"

def position? : ParseError → Option Position
  | .tooDeep p | .misplacedParameter p => some p
  | .rejected => none

def message (e : ParseError) : String :=
  match e.position? with
  | some p => e.reason ++ " at line " ++ toString p.line ++ ", column " ++ toString p.column
  | none => e.reason

end ParseError

/-- The statements of a concrete tree. Nesting is checked before anything visits the tree. -/
def ofTree (root : Node) : Except ParseError (List Stmt) :=
  match root.tooDeep? with
  | some n => .error (.tooDeep n.position)
  | none =>
    let body := Stmt.ofBlock root
    match Stmt.misplaced? body with
    | some p => .error (.misplacedParameter p)
    | none => .ok body

def parse (source : String) : Except ParseError (List Stmt) :=
  match Node.parse? source with
  | none => .error .rejected
  | some root => ofTree root

end DocSnapshot.Python
