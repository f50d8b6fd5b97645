import DocSnapshot.Proofs.Json.Writing
import DocSnapshot.Record.Json
import DocSnapshot.Record.Reader

/-! Records as JSON values. Every part of a record is found again in the value it is written as: the
flags of a method are there exactly if the function has them, the kind of an argument says which
fields it has, and a body that is an error never has the form of a structure. -/
namespace DocSnapshot.Json

theorem optionalString?_optStr (o : Option String) :
    optionalString? (some (optStr o)) = some o := by
  cases o <;> rfl

theorem natural?_nat {n : Nat} (h : n < Nat.pow 2 64) : (nat n).natural? = some n :=
  if_pos h

theorem listOf?_map {α : Type} {read : Json → Option α} {write : α → Json} {values : List α}
    (h : ∀ a ∈ values, read (write a) = some a) :
    (arr (values.map write)).listOf? read = some values := by
  rw [listOf?]
  induction values with
  | nil => rfl
  | cons a values ih =>
    rw [List.forall_mem_cons] at h
    rw [List.map_cons, List.mapM_cons, h.1, ih h.2]
    rfl

theorem strings?_strings (ss : List String) : (strings ss).strings? = some ss :=
  listOf?_map fun _ _ => rfl

end DocSnapshot.Json

namespace DocSnapshot.Record
open Json

structure Class.Fits (c : Class) : Prop where
  line : c.line < Nat.pow 2 64
  methods : ∀ m ∈ c.methods, m.line < Nat.pow 2 64
  properties : ∀ p ∈ c.properties, p.line < Nat.pow 2 64

structure Structure.Fits (s : Structure) : Prop where
  classes : ∀ c ∈ s.classes, c.Fits
  functions : ∀ f ∈ s.functions, f.line < Nat.pow 2 64
  constants : ∀ c ∈ s.constants, c.line < Nat.pow 2 64

def Body.Fits : Body → Prop
  | .structure s => s.Fits
  | .failed _ => True

section Shapes

theorem Import.ofJson?_toJson (i : Import) : Import.ofJson? i.toJson = some i := by
  have hfields : i.toJson.fieldsOrItems? ["kind", "module", "imported_name", "alias"] =
      some [some (.str i.kind.tag), some (.str i.module), some (.optStr i.importedName),
        some (.optStr i.asName)] := rfl
  have hkind : ImportKind.ofJson? (.str i.kind.tag) = some i.kind := by
    cases i.kind <;> rfl
  rw [Import.ofJson?, hfields]
  dsimp only [Option.bind_eq_bind, Option.bind_some, string?]
  rw [hkind, optionalString?_optStr, optionalString?_optStr]
  rfl

theorem Argument.ofJson?_toJson (a : Argument) : Argument.ofJson? a.toJson = some a := by
  cases a with
  | positional _ typeHint _ default => cases typeHint <;> cases default <;> rfl
  | keywordOnly _ typeHint _ default => cases typeHint <;> cases default <;> rfl
  | varPositional _ typeHint => cases typeHint <;> rfl
  | varKeyword _ typeHint => cases typeHint <;> rfl

theorem MethodFlags.ofJson?_toJson (f : Function) : MethodFlags.ofJson? f.toJson = f.method := by
  rw [Function.toJson]
  cases f.method <;> rfl

theorem Function.ofJson?_toJson {f : Function} (h : f.line < Nat.pow 2 64) :
    Function.ofJson? f.toJson = some f := by
  have hfields : f.toJson.fields? ["name", "docstring", "line_number", "arguments",
      "decorator_names", "is_async", "is_method", "return_type"] = some [some (.str f.name),
      some (.optStr f.docstring), some (.nat f.line),
      some (.arr (f.arguments.map Argument.toJson)), some (.strings f.decorators),
      some (.bool f.isAsync), some (.bool f.isMethod), some (.optStr f.returnType)] := by
    rw [Function.toJson]
    cases f.method <;> rfl
  rw [Function.ofJson?, hfields, MethodFlags.ofJson?_toJson]
  dsimp only [Option.bind_eq_bind, Option.bind_some, string?, boolean?]
  rw [optionalString?_optStr, natural?_nat h, listOf?_map fun a _ => a.ofJson?_toJson,
    strings?_strings, optionalString?_optStr]
  rfl

theorem Property.ofJson?_toJson {p : Property} (h : p.line < Nat.pow 2 64) :
    Property.ofJson? p.toJson = some p := by
  have hfields : p.toJson.fieldsOrItems? ["name", "docstring", "line_number"] =
      some [some (.str p.name), some (.optStr p.docstring), some (.nat p.line)] := rfl
  rw [Property.ofJson?, hfields]
  dsimp only [Option.bind_eq_bind, Option.bind_some, string?]
  rw [optionalString?_optStr, natural?_nat h]
  rfl

theorem Constant.ofJson?_toJson {c : Constant} (h : c.line < Nat.pow 2 64) :
    Constant.ofJson? c.toJson = some c := by
  have hfields : c.toJson.fieldsOrItems? ["name", "line_number", "value_repr"] =
      some [some (.str c.name), some (.nat c.line), some (.str c.value)] := rfl
  rw [Constant.ofJson?, hfields]
  dsimp only [Option.bind_eq_bind, Option.bind_some, string?]
  rw [natural?_nat h]
  rfl

theorem Class.ofJson?_toJson {c : Class} (h : c.Fits) : Class.ofJson? c.toJson = some c := by
  have hfields : c.toJson.fieldsOrItems? ["name", "docstring", "line_number", "base_names",
      "decorator_names", "methods", "properties"] = some [some (.str c.name),
      some (.optStr c.docstring), some (.nat c.line), some (.strings c.bases),
      some (.strings c.decorators), some (.arr (c.methods.map Function.toJson)),
      some (.arr (c.properties.map Property.toJson))] := rfl
  rw [Class.ofJson?, hfields]
  dsimp only [Option.bind_eq_bind, Option.bind_some, string?]
  rw [optionalString?_optStr, natural?_nat h.line, strings?_strings, strings?_strings,
    listOf?_map fun m hm => Function.ofJson?_toJson (h.methods m hm),
    listOf?_map fun p hp => Property.ofJson?_toJson (h.properties p hp)]
  rfl

theorem Structure.ofJson?_members {s : Structure} (h : s.Fits) :
    Structure.ofJson? (.obj s.members) = some s := by
  have hfields : (Json.obj s.members).fields? ["module_docstring", "imports", "classes",
      "functions", "constants"] = some [some (.optStr s.docstring),
      some (.arr (s.imports.map Import.toJson)), some (.arr (s.classes.map Class.toJson)),
      some (.arr (s.functions.map Function.toJson)),
      some (.arr (s.constants.map Constant.toJson))] := rfl
  rw [Structure.ofJson?, hfields]
  dsimp only [Option.bind_eq_bind, Option.bind_some]
  rw [optionalString?_optStr, listOf?_map fun i _ => i.ofJson?_toJson,
    listOf?_map fun c hc => Class.ofJson?_toJson (h.classes c hc),
    listOf?_map fun f hf => Function.ofJson?_toJson (h.functions f hf),
    listOf?_map fun c hc => Constant.ofJson?_toJson (h.constants c hc)]
  rfl

/-- The members of a body are read as that body, and an error is not taken for a structure. -/
theorem Body.ofMembers?_members {b : Body} (h : b.Fits) : ofMembers? b.members = some b := by
  cases b with
  | «structure» s => rw [ofMembers?, members, Structure.ofJson?_members h]
  | failed e => rfl

end Shapes

section Depths
open Json.Reader (Depth)
variable (d : Depth)

private theorem readable_optStr (o : Option String) : Readable (d + 1) (.optStr o) := by
  cases o with
  | none => exact .null d
  | some s => exact .str d s

private theorem readable_map {α : Type} {write : α → Json} {values : List α}
    (h : ∀ a ∈ values, Readable (d + 1) (write a)) :
    Readable (d + 2) (.arr (values.map write)) := by
  refine .arr fun j hj => ?_
  obtain ⟨a,ha,rfl⟩ := List.mem_map.1 hj
  exact h a ha

private theorem readable_strings (ss : List String) : Readable (d + 2) (.strings ss) :=
  readable_map d fun s _ => .str d s

attribute [local simp] Readable.bool Readable.str readable_optStr readable_strings

private theorem Import.readable (i : Import) : Readable (d + 2) i.toJson :=
  .obj (by simp)

private theorem Argument.readable (a : Argument) : Readable (d + 2) a.toJson :=
  .obj (by cases a <;> simp [mayDefault])

private theorem Function.readable {f : Function} (h : f.line < Nat.pow 2 64) :
    Readable (d + 4) f.toJson := by
  have harguments := readable_map (d + 1) fun a (_ : a ∈ f.arguments) => a.readable d
  have hline := Readable.nat (d + 2) h
  refine .obj ?_
  cases f.method with
  | none => simp [harguments, hline]
  | some m => simp [harguments, hline, MethodFlags.members]

private theorem Property.readable {p : Property} (h : p.line < Nat.pow 2 64) :
    Readable (d + 2) p.toJson :=
  .obj (by simp [Readable.nat d h])

private theorem Constant.readable {c : Constant} (h : c.line < Nat.pow 2 64) :
    Readable (d + 2) c.toJson :=
  .obj (by simp [Readable.nat d h])

private theorem Class.readable {c : Class} (h : c.Fits) : Readable (d + 6) c.toJson := by
  have hmethods := readable_map (d + 3) fun m hm => Function.readable d (h.methods m hm)
  have hproperties := readable_map (d + 3) fun p hp => Property.readable (d + 2) (h.properties p hp)
  exact .obj (by simp [Readable.nat (d + 4) h.line, hmethods, hproperties])

/-- The values of a body nest at most seven deep. -/
theorem Body.readable_members {b : Body} (h : b.Fits) :
    ∀ m ∈ b.members, Readable (d + 7) m.2 := by
  cases b with
  | failed e => simp [members]
  | «structure» s =>
    have himports := readable_map (d + 5) fun i (_ : i ∈ s.imports) => i.readable (d + 4)
    have hclasses := readable_map (d + 5) fun c hc => Class.readable d (h.classes c hc)
    have hfunctions := readable_map (d + 5) fun f hf => Function.readable (d + 2) (h.functions f hf)
    have hconstants := readable_map (d + 5) fun c hc => Constant.readable (d + 4) (h.constants c hc)
    simp [members, Structure.members, himports, hclasses, hfunctions, hconstants]

end Depths

end DocSnapshot.Record
