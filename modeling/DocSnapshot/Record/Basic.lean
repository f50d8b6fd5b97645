import DocSnapshot.Timestamp

/-! Documentation records: what is kept about one source file. -/
namespace DocSnapshot.Record

inductive ImportKind where
  | direct
  | fromModule
  deriving DecidableEq, Repr

/-- One imported symbol. Relative modules keep their leading dots. -/
structure Import where
  kind : ImportKind
  module : String
  importedName : Option String
  asName : Option String
  deriving DecidableEq, Repr

/-- One parameter. The names of collecting parameters carry their stars. -/
inductive Argument where
  | positional (name : String) (typeHint : Option String) (hasDefault : Bool)
      (default : Option String)
  | keywordOnly (name : String) (typeHint : Option String) (hasDefault : Bool)
      (default : Option String)
  | varPositional (name : String) (typeHint : Option String)
  | varKeyword (name : String) (typeHint : Option String)
  deriving DecidableEq, Repr

namespace Argument

def name : Argument → String
  | .positional n .. | .keywordOnly n .. | .varPositional n _ | .varKeyword n _ => n

def typeHint : Argument → Option String
  | .positional _ a .. | .keywordOnly _ a .. | .varPositional _ a | .varKeyword _ a => a

def hasDefault : Argument → Bool
  | .positional _ _ h _ | .keywordOnly _ _ h _ => h
  | .varPositional .. | .varKeyword .. => false

def defaultText : Argument → Option String
  | .positional _ _ _ d | .keywordOnly _ _ _ d => d
  | .varPositional .. | .varKeyword .. => none

end Argument

structure MethodFlags where
  isClassMethod : Bool
  isStaticMethod : Bool
  isPrivate : Bool
  deriving DecidableEq, Repr

structure Function where
  name : String
  docstring : Option String
  line : Nat
  arguments : List Argument
  decorators : List String
  isAsync : Bool
  isMethod : Bool
  returnType : Option String
  method : Option MethodFlags
  deriving DecidableEq, Repr

structure Property where
  name : String
  docstring : Option String
  line : Nat
  deriving DecidableEq, Repr

structure Class where
  name : String
  docstring : Option String
  line : Nat
  bases : List String
  decorators : List String
  methods : List Function
  properties : List Property
  deriving DecidableEq, Repr

structure Constant where
  name : String
  line : Nat
  value : String
  deriving DecidableEq, Repr

/-- The declared structure of a module: every import and class wherever it stands, and the
functions and constants of the top level. -/
structure Structure where
  docstring : Option String
  imports : List Import
  classes : List Class
  functions : List Function
  constants : List Constant
  deriving DecidableEq, Repr

inductive Body where
  | structure (s : Structure)
  | failed (error : String)
  deriving DecidableEq, Repr

namespace Body

def failure? : Body → Option String
  | .failed e => some e
  | .structure _ => none

def structure? : Body → Option Structure
  | .structure s => some s
  | .failed _ => none

def isError (b : Body) : Bool := b.failure?.isSome

end Body

end DocSnapshot.Record

namespace DocSnapshot

structure Record where
  path : String
  body : Record.Body
  generatedAt : Timestamp
  deriving DecidableEq, Repr

end DocSnapshot
