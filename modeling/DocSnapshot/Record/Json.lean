import DocSnapshot.Json.Value
import DocSnapshot.Record.Basic

/-! Records as JSON. -/
namespace DocSnapshot.Record

def ImportKind.tag : ImportKind → String
  | .direct => "direct"
  | .fromModule => "from_module"

def Import.toJson (i : Import) : Json :=
  .obj [("kind", .str i.kind.tag), ("module", .str i.module),
    ("imported_name", .optStr i.importedName), ("alias", .optStr i.asName)]

namespace Argument

def tag : Argument → String
  | .positional .. => "positional"
  | .keywordOnly .. => "keyword_only"
  | .varPositional .. => "var_positional"
  | .varKeyword .. => "var_keyword"

def mayDefault : Argument → Bool
  | .positional .. | .keywordOnly .. => true
  | .varPositional .. | .varKeyword .. => false

def toJson (a : Argument) : Json :=
  .obj ([("kind", .str a.tag), ("name", .str a.name), ("type_annotation", .optStr a.typeHint)] ++
    (if a.mayDefault then
      [("has_default", .bool a.hasDefault), ("default_value_repr", .optStr a.defaultText)]
    else []))

end Argument

def MethodFlags.members (m : MethodFlags) : List (String × Json) :=
  [("is_classmethod", .bool m.isClassMethod), ("is_staticmethod", .bool m.isStaticMethod),
    ("is_private", .bool m.isPrivate)]

def Function.toJson (f : Function) : Json :=
  .obj ([("name", .str f.name), ("docstring", .optStr f.docstring), ("line_number", .nat f.line),
    ("arguments", .arr (f.arguments.map Argument.toJson)),
    ("decorator_names", .strings f.decorators), ("is_async", .bool f.isAsync),
    ("is_method", .bool f.isMethod), ("return_type", .optStr f.returnType)] ++
    (match f.method with
      | some m => m.members
      | none => []))

def Property.toJson (p : Property) : Json :=
  .obj [("name", .str p.name), ("docstring", .optStr p.docstring), ("line_number", .nat p.line)]

def Class.toJson (c : Class) : Json :=
  .obj [("name", .str c.name), ("docstring", .optStr c.docstring), ("line_number", .nat c.line),
    ("base_names", .strings c.bases), ("decorator_names", .strings c.decorators),
    ("methods", .arr (c.methods.map Function.toJson)),
    ("properties", .arr (c.properties.map Property.toJson))]

def Constant.toJson (c : Constant) : Json :=
  .obj [("name", .str c.name), ("line_number", .nat c.line), ("value_repr", .str c.value)]

def Structure.members (s : Structure) : List (String × Json) :=
  [("module_docstring", .optStr s.docstring), ("imports", .arr (s.imports.map Import.toJson)),
    ("classes", .arr (s.classes.map Class.toJson)),
    ("functions", .arr (s.functions.map Function.toJson)),
    ("constants", .arr (s.constants.map Constant.toJson))]

def Body.members : Body → List (String × Json)
  | .structure s => s.members
  | .failed e => [("error", .str e)]

def toJson (r : Record) : Json :=
  .obj ([("path", .str r.path)] ++ r.body.members ++ [("generated_at", .str r.generatedAt.render)])

end DocSnapshot.Record
