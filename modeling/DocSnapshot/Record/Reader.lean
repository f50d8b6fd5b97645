import DocSnapshot.Json.Reader
import DocSnapshot.Json.Shape
import DocSnapshot.Record.Basic

/-! Reading records from JSON. A record whose body fits neither form is refused as a whole, so the
parts of a body need no faults of their own. -/
namespace DocSnapshot.Record
open DocSnapshot.Json (optionalString?)

namespace ImportKind

def ofTag? : String → Option ImportKind
  | "direct" => some .direct
  | "from_module" => some .fromModule
  | _ => none

def ofJson? : Json → Option ImportKind
  | .str s => ofTag? s
  | .obj [(s, .null)] => ofTag? s
  | _ => none

end ImportKind

def Import.ofJson? (j : Json) : Option Import := do
  let [kind, module, importedName, asName] ←
    j.fieldsOrItems? ["kind", "module", "imported_name", "alias"] | none
  return {
    kind := ← ImportKind.ofJson? (← kind)
    module := ← (← module).string?
    importedName := ← optionalString? importedName
    asName := ← optionalString? asName }

namespace Argument

def tags : List String := ["positional", "keyword_only", "var_positional", "var_keyword"]

def kind? : Json → Option Nat
  | .str s => tags.idxOf? s
  | .int (.ofNat n) => if n < tags.length then some n else none
  | _ => none

def withDefault? (make : String → Option String → Bool → Option String → Argument)
    (j : Json) : Option Argument := do
  let [name, typeHint, hasDefault, default] ←
    j.fieldsOrItems? ["name", "type_annotation", "has_default", "default_value_repr"] | none
  return make (← (← name).string?) (← optionalString? typeHint) (← (← hasDefault).boolean?)
    (← optionalString? default)

def collecting? (make : String → Option String → Argument) (j : Json) :
    Option Argument := do
  let [name, typeHint] ← j.fieldsOrItems? ["name", "type_annotation"] | none
  return make (← (← name).string?) (← optionalString? typeHint)

def ofFields? (kind : Nat) (j : Json) : Option Argument :=
  match kind with
  | 0 => withDefault? .positional j
  | 1 => withDefault? .keywordOnly j
  | 2 => collecting? .varPositional j
  | _ => collecting? .varKeyword j

def ofJson? : Json → Option Argument
  | .obj members => do
    let kind ← kind? (← ← Json.single? members "kind")
    ofFields? kind (.obj (members.filter (·.1 ≠ "kind")))
  | .arr (kind :: items) => do ofFields? (← kind? kind) (.arr items)
  | _ => none

end Argument

namespace MethodFlags

def ofJson? (j : Json) : Option MethodFlags := do
  let [isClassMethod, isStaticMethod, isPrivate] ←
    j.fields? ["is_classmethod", "is_staticmethod", "is_private"] | none
  return ⟨← (← isClassMethod).boolean?, ← (← isStaticMethod).boolean?, ← (← isPrivate).boolean?⟩

end MethodFlags

def Function.ofJson? (j : Json) : Option Function := do
  let [name, docstring, line, arguments, decorators, isAsync, isMethod, returnType] ←
    j.fields? ["name", "docstring", "line_number", "arguments", "decorator_names", "is_async",
      "is_method", "return_type"] | none
  return {
    name := ← (← name).string?
    docstring := ← optionalString? docstring
    line := ← (← line).natural?
    arguments := ← (← arguments).listOf? Argument.ofJson?
    decorators := ← (← decorators).strings?
    isAsync := ← (← isAsync).boolean?
    isMethod := ← (← isMethod).boolean?
    returnType := ← optionalString? returnType
    method := MethodFlags.ofJson? j }

def Property.ofJson? (j : Json) : Option Property := do
  let [name, docstring, line] ← j.fieldsOrItems? ["name", "docstring", "line_number"] | none
  return ⟨← (← name).string?, ← optionalString? docstring, ← (← line).natural?⟩

def Class.ofJson? (j : Json) : Option Class := do
  let [name, docstring, line, bases, decorators, methods, properties] ←
    j.fieldsOrItems? ["name", "docstring", "line_number", "base_names", "decorator_names",
      "methods", "properties"] | none
  return {
    name := ← (← name).string?
    docstring := ← optionalString? docstring
    line := ← (← line).natural?
    bases := ← (← bases).strings?
    decorators := ← (← decorators).strings?
    methods := ← (← methods).listOf? Function.ofJson?
    properties := ← (← properties).listOf? Property.ofJson? }

def Constant.ofJson? (j : Json) : Option Constant := do
  let [name, line, value] ← j.fieldsOrItems? ["name", "line_number", "value_repr"] | none
  return ⟨← (← name).string?, ← (← line).natural?, ← (← value).string?⟩

def Structure.ofJson? (j : Json) : Option Structure := do
  let [docstring, imports, classes, functions, constants] ←
    j.fields? ["module_docstring", "imports", "classes", "functions", "constants"] | none
  return {
    docstring := ← optionalString? docstring
    imports := ← (← imports).listOf? Import.ofJson?
    classes := ← (← classes).listOf? Class.ofJson?
    functions := ← (← functions).listOf? Function.ofJson?
    constants := ← (← constants).listOf? Constant.ofJson? }

def Body.ofMembers? (members : List (String × Json)) : Option Body :=
  match Structure.ofJson? (.obj members) with
  | some s => some (.structure s)
  | none => do
    let [error] ← (Json.obj members).fields? ["error"] | none
    return .failed (← (← error).string?)

open Json.Reader in
def readTimestamp : Json.Reader Timestamp := do
  match Timestamp.parse (← string "an RFC 3339 formatted date and time string") with
  | .ok t => return t
  | .error e => fail e.message

structure Draft where
  path : Option String := none
  generatedAt : Option Timestamp := none
  body : List (String × Json) := []

open Json.Reader in
def readMember (depth : Depth) (key : String) (d : Draft) : Json.Reader Draft := do
  if key = "path" then
    if d.path.isSome then failClosing '\x7d' ("duplicate field " ++ ticked key)
    colon
    return { d with path := some (← string "a string") }
  else if key = "generated_at" then
    if d.generatedAt.isSome then failClosing '\x7d' ("duplicate field " ++ ticked key)
    colon
    return { d with generatedAt := some (← readTimestamp) }
  else
    colon
    return { d with body := (key, ← any depth) :: d.body }

open Json.Reader in
/-- A record is an object. The members of its body stand beside its own, in any order. -/
def read : Json.Reader Record := do
  if (← startOfValue) = '\x7b' then
    let depth ← enter fullDepth
    let draft ← members (readMember depth) (← remaining) true {}
    closeObject
    match draft.path, draft.generatedAt, Body.ofMembers? draft.body.reverse with
    | none, _, _ => fail ("missing field " ++ ticked "path")
    | _, none, _ => fail ("missing field " ++ ticked "generated_at")
    | _, _, none => fail "data did not match any variant of untagged enum RecordBody"
    | some path, some time, some body => return ⟨path, body, time⟩
  else mismatch "struct DocumentationRecord"

def ofText (text : String) : Except Json.Fault Record := Json.Reader.whole read text

end DocSnapshot.Record
