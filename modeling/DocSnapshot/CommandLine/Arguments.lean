/-! The arguments of the command line. -/
namespace DocSnapshot.CommandLine

inductive Command where
  | init
  | generate (commit : Option String)
  | status
  deriving DecidableEq, Repr

inductive Verb where
  | init
  | generate
  | status
  deriving DecidableEq, Repr

inductive Request where
  | execute (path : String) (command : Command)
  | version
  | help (verb : Option Verb)
  deriving DecidableEq, Repr

inductive Key where
  | path
  | commit
  deriving DecidableEq, Repr

structure Given where
  path : Option String
  commit : Option String
  deriving DecidableEq, Repr

inductive Word where
  | option (key : Key) (attached : Option (List Char))
  | help
  | version
  | unknown
  | close
  | plain
  deriving DecidableEq, Repr

abbrev Place := Option Verb

def Verb.ofName? : String → Option Verb
  | "init" => some .init
  | "generate" => some .generate
  | "status" => some .status
  | _ => none

/-- Options with one letter. Only `generate` has a commit, and only the program has a version. -/
def Word.ofLetter (place : Place) (letter : Char) (attached : Option (List Char)) : Word :=
  match letter with
  | 'C' => .option .path attached
  | 'c' => if place = some .generate then .option .commit attached else .unknown
  | 'h' => .help
  | 'V' => if place = none then .version else .unknown
  | _ => .unknown

/-- Options with a name. A flag takes no value. -/
def Word.ofName (place : Place) (name : List Char) (attached : Option (List Char)) : Word :=
  match String.ofList name with
  | "path" => .option .path attached
  | "commit" => if place = some .generate then .option .commit attached else .unknown
  | "help" => if attached = none then .help else .unknown
  | "version" => if place = none && attached = none then .version else .unknown
  | _ => .unknown

private def attachedValue : List Char → Option (List Char)
  | [] => none
  | '=' :: value => some value
  | value => some value

/-- Reads one argument. A lone dash is no option. -/
def Word.ofText (place : Place) (text : List Char) : Word :=
  match text with
  | ['-', '-'] => .close
  | '-' :: '-' :: rest =>
    let name := rest.takeWhile (· ≠ '=')
    ofName place name (match rest.drop name.length with
      | [] => none
      | _ :: value => some value)
  | '-' :: letter :: rest => ofLetter place letter (attachedValue rest)
  | _ => .plain

/-- Keeps the value of an option. An option is given at most once, and a path is not empty. -/
def Given.store? (g : Given) (key : Key) (value : String) : Option Given :=
  match key with
  | .path => if g.path = none && !value.isEmpty then some { g with path := some value } else none
  | .commit => if g.commit = none then some { g with commit := some value } else none

inductive Ending where
  | complete (given : Given)
  | word (given : Given) (text : String) (rest : List String)
  | help
  | version
  | misuse
  deriving DecidableEq, Repr

def readOptions (place : Place) (g : Given) : List String → Ending
  | [] => .complete g
  | text :: rest =>
    match Word.ofText place text.toList with
    | .help => .help
    | .version => .version
    | .unknown => .misuse
    | .plain => .word g text rest
    | .close => if rest.isEmpty then .complete g else .misuse
    | .option key (some value) =>
      match g.store? key (String.ofList value) with
      | some g => readOptions place g rest
      | none => .misuse
    | .option key none =>
      match rest with
      | [] => .misuse
      | value :: rest =>
        if Word.ofText place value.toList ≠ .plain then .misuse
        else match g.store? key value with
          | some g => readOptions place g rest
          | none => .misuse

def Command.ofVerb (commit : Option String) : Verb → Command
  | .init => .init
  | .generate => .generate commit
  | .status => .status

/-- What the arguments behind a verb ask for. A path there goes before one in front of the verb. -/
def readVerb (path : Option String) (verb : Verb) (arguments : List String) : Option Request :=
  match readOptions (some verb) ⟨none, none⟩ arguments with
  | .complete g => some (.execute ((g.path.or path).getD ".") (.ofVerb g.commit verb))
  | .help => some (.help (some verb))
  | _ => none

def readHelp : List String → Option Request
  | [] | ["help"] => some (.help none)
  | [name] => (Verb.ofName? name).map fun verb => .help (some verb)
  | _ => none

def Request.ofArguments? (arguments : List String) : Option Request :=
  match readOptions none ⟨none, none⟩ arguments with
  | .word g text rest =>
    if text = "help" then readHelp rest
    else (Verb.ofName? text).bind fun verb => readVerb g.path verb rest
  | .help => some (.help none)
  | .version => some .version
  | _ => none

end DocSnapshot.CommandLine
