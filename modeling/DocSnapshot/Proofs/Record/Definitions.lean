import DocSnapshot.Proofs.Python.Places
import DocSnapshot.Record.Extraction

/-! Which function definitions are reported, and where. A definition is reported for its place
alone: directly in the module as a function, directly in a class as a method of that class, and
anywhere else not at all. -/
namespace DocSnapshot.Record
open DocSnapshot.Python (Expr Place Stmt)
open DocSnapshot.Python.Stmt (at?)

variable {body : List Stmt} {p q : Place}

def IsFunction (body : List Stmt) (p : Place) : Prop := ∃ f b, at? body p = some (.functionDef f b)

def IsClass (body : List Stmt) (p : Place) : Prop := ∃ c b, at? body p = some (.classDef c b)

/-- Whether a function definition stands at a place of which a decorator makes a property. -/
def IsPropertyAt (body : List Stmt) (p : Place) : Prop :=
  ∃ f b, at? body p = some (.functionDef f b) ∧
    ∃ d ∈ f.decorators, d = .name "property" ∨ ∃ e, d = .attribute e "property"

/-- Whether an entry is that of the function definition at a place. -/
structure FunctionAt (body : List Stmt) (asMethod : Bool) (p : Place) (r : Function) : Prop where
  definition : ∃ f b, at? body p = some (.functionDef f b) ∧
    r = Function.ofDefinition f b asMethod
  isMethod : r.isMethod = asMethod
  flags : r.method.isSome = asMethod

/-- Whether an entry is that of the property at a place, which is a method too. -/
def PropertyAt (body : List Stmt) (p : Place) (r : Property) : Prop :=
  ∃ m, FunctionAt body true p m ∧ r.name = m.name ∧ r.docstring = m.docstring ∧ r.line = m.line

/-- Whether an entry is that of the class at a place, with its methods and properties. -/
structure ClassAt (body : List Stmt) (q : Place) (r : Class) : Prop where
  definition : ∃ c b, at? body q = some (.classDef c b) ∧ r = Class.ofDefinition c b
  methods : Stmt.Lists (fun p => IsFunction body p ∧ p.owner = q) (FunctionAt body true) r.methods
  properties : Stmt.Lists (fun p => IsPropertyAt body p ∧ p.owner = q) (PropertyAt body)
    r.properties
  shared : r.properties.Sublist (r.methods.map fun m => ⟨m.name, m.docstring, m.line⟩)

theorem functionAt_ofDefinition {f : Python.Function} {b : List Stmt}
    (h : at? body p = some (.functionDef f b)) (asMethod : Bool) :
    FunctionAt body asMethod p (Function.ofDefinition f b asMethod) :=
  ⟨⟨f,b,h,rfl⟩,rfl,by cases asMethod <;> rfl⟩

section Blocks

def definedFunction? (asMethod : Bool) : Stmt → Option Function
  | .functionDef f b => some (Function.ofDefinition f b asMethod)
  | _ => none

def definedProperty? : Stmt → Option Property
  | .functionDef f b =>
    if f.decorators.any isProperty then some ⟨f.name, docstring? b, f.line⟩ else none
  | _ => none

theorem isProperty_iff (e : Expr) :
    isProperty e = true ↔ e = .name "property" ∨ ∃ v, e = .attribute v "property" := by
  cases e <;> simp [isProperty]

variable {block : List Stmt} (h : Stmt.Lists (fun p => (at? body p).isSome ∧ p.owner = q)
  (fun p s => at? body p = some s) block)

include h

/-- The functions of a block are those that stand in it directly. -/
theorem lists_functions (asMethod : Bool) :
    Stmt.Lists (fun p => IsFunction body p ∧ p.owner = q) (FunctionAt body asMethod)
      (block.filterMap (definedFunction? asMethod)) := by
  refine h.filterMap ?_ ?_ ?_
  · rintro p ⟨⟨f,b,hs⟩,howner⟩
    exact ⟨by simp [hs],howner⟩
  · intro p s r hp hs hr
    cases s with
    | functionDef f b =>
      cases hr
      exact ⟨⟨⟨f,b,hs⟩,hp.2⟩,functionAt_ofDefinition hs asMethod⟩
    | _ => cases hr
  · rintro p s hs hnone ⟨⟨f,b,hf⟩,-⟩
    rw [hs] at hf
    cases hf
    cases hnone

/-- The properties of a block are those that stand in it directly. -/
theorem lists_properties :
    Stmt.Lists (fun p => IsPropertyAt body p ∧ p.owner = q) (PropertyAt body)
      (block.filterMap definedProperty?) := by
  have hany (f : Python.Function) : f.decorators.any isProperty = true ↔
      ∃ d ∈ f.decorators, d = .name "property" ∨ ∃ e, d = .attribute e "property" := by
    simp only [List.any_eq_true, isProperty_iff]
  refine h.filterMap ?_ ?_ ?_
  · rintro p ⟨⟨f,b,hs,-⟩,howner⟩
    exact ⟨by simp [hs],howner⟩
  · intro p s r hp hs hr
    cases s with
    | functionDef f b =>
      rw [definedProperty?] at hr
      split at hr
      · next hproperty =>
        cases hr
        exact ⟨⟨⟨f,b,hs,(hany f).mp hproperty⟩,hp.2⟩,_,functionAt_ofDefinition hs true,rfl,rfl,rfl⟩
      · cases hr
    | _ => cases hr
  · rintro p s hs hnone ⟨⟨f,b,hf,hproperty⟩,-⟩
    rw [hs] at hf
    cases hf
    rw [definedProperty?, if_pos ((hany f).mpr hproperty)] at hnone
    cases hnone

end Blocks

section Classes

theorem methods_eq (c : Python.Class) (block : List Stmt) :
    (Class.ofDefinition c block).methods = block.filterMap (definedFunction? true) := by
  rw [Class.ofDefinition, Class.methodsOf, List.map_filterMap]
  refine List.filterMap_congr fun s _ => ?_
  cases s <;> rfl

private def propertyOf (m : Function × List Expr) : Property :=
  ⟨m.1.name, m.1.docstring, m.1.line⟩

private theorem properties_eq_map (c : Python.Class) (block : List Stmt) :
    (Class.ofDefinition c block).properties =
      ((Class.methodsOf block).filter (·.2.any isProperty)).map propertyOf := rfl

theorem properties_eq (c : Python.Class) (block : List Stmt) :
    (Class.ofDefinition c block).properties = block.filterMap definedProperty? := by
  rw [properties_eq_map, Class.methodsOf, List.filter_filterMap, List.map_filterMap]
  refine List.filterMap_congr fun s _ => ?_
  cases s with
  | functionDef f b =>
    simp only [definedProperty?, Option.filter]
    split <;> rfl
  | _ => rfl

theorem properties_sublist (c : Python.Class) (block : List Stmt) :
    (Class.ofDefinition c block).properties.Sublist
      ((Class.ofDefinition c block).methods.map fun m => ⟨m.name, m.docstring, m.line⟩) := by
  have hsub := (List.filter_sublist (p := fun m => m.2.any isProperty)
    (l := Class.methodsOf block)).map propertyOf
  rw [properties_eq_map, Class.ofDefinition, List.map_map]
  exact hsub

/-- The entry of a class belongs to its place, with what stands in it directly. -/
theorem classAt_ofDefinition {c : Python.Class} {block : List Stmt}
    (h : at? body q = some (.classDef c block)) :
    ClassAt body q (Class.ofDefinition c block) where
  definition := ⟨c,block,h,rfl⟩
  methods := by
    rw [methods_eq]
    exact lists_functions (Stmt.lists_class h) true
  properties := by
    rw [properties_eq]
    exact lists_properties (Stmt.lists_class h)
  shared := properties_sublist c block

theorem lists_classes (body : List Stmt) :
    Stmt.Lists (IsClass body) (ClassAt body) (Structure.ofBody body).classes := by
  refine (Stmt.finds_walkAll body).filterMap ?_ ?_ ?_
  · rintro q ⟨c,b,hs⟩
    simp [hs]
  · intro q s r _ hs hr
    cases s with
    | classDef c b =>
      cases hr
      exact ⟨⟨c,b,hs⟩,classAt_ofDefinition hs⟩
    | _ => cases hr
  · rintro q s hs hnone ⟨c,b,hc⟩
    rw [hs] at hc
    cases hc
    cases hnone

end Classes

private theorem exists_methods {qs : List Place} {cs : List Class} (hqs : qs.Nodup)
    (h : List.Forall₂ (ClassAt body) qs cs) : ∃ ds : List Place, ds.Nodup ∧
      (∀ p, p ∈ ds ↔ IsFunction body p ∧ p.owner ∈ qs) ∧
      ds.length = (cs.flatMap (·.methods)).length := by
  -- Classes at different places have different methods.
  induction h with
  | nil => exact ⟨[],by simp⟩
  | @cons q c qs cs hqc _ ih =>
    rw [List.nodup_cons] at hqs
    obtain ⟨ds,hnodup,hmem,hlength⟩ := ih hqs.2
    obtain ⟨ps,hnodup',hmem',hlength'⟩ := hqc.methods.exists_nodup
    refine ⟨ps ++ ds,List.nodup_append.mpr ⟨hnodup',hnodup,?_⟩,fun p => ?_,?_⟩
    -- A place has one owner, and the classes before this one are others.
    · rintro p hp _ hd rfl
      exact hqs.1 (((hmem' p).mp hp).2 ▸ ((hmem p).mp hd).2)
    · rw [List.mem_append, hmem', hmem, List.mem_cons, ← and_or_left]
    · rw [List.length_append, hlength, hlength', List.flatMap_cons, List.length_append]

theorem lists_moduleFunctions (body : List Stmt) :
    Stmt.Lists (fun p => IsFunction body p ∧ p.owner = []) (FunctionAt body false)
      (Structure.ofBody body).functions := by
  have heq : (Structure.ofBody body).functions = body.filterMap (definedFunction? false) := by
    refine List.filterMap_congr fun s _ => ?_
    cases s <;> rfl
  rw [heq]
  exact lists_functions (Stmt.lists_module body) false

/-- Every function definition is reported once or nowhere, by its place alone. The functions are the
definitions that stand in the module directly, and the methods of a class those that stand in the
class directly, wherever it stands itself; its properties are those among them that a decorator
makes one. So there are as many functions and methods as definitions of these two kinds. -/
theorem ofBody_reports_by_place (body : List Stmt) :
    Stmt.Lists (fun p => IsFunction body p ∧ p.owner = []) (FunctionAt body false)
      (Structure.ofBody body).functions ∧
    Stmt.Lists (IsClass body) (ClassAt body) (Structure.ofBody body).classes ∧
    ∃ ds : List Place, ds.Nodup ∧
      (∀ p, p ∈ ds ↔ IsFunction body p ∧ (p.owner = [] ∨ IsClass body p.owner)) ∧
      ds.length = (Structure.ofBody body).functions.length +
        ((Structure.ofBody body).classes.flatMap (·.methods)).length := by
  have hfunctions := lists_moduleFunctions body
  have hclasses := lists_classes body
  refine ⟨hfunctions,hclasses,?_⟩
  obtain ⟨fs,hnodup,hmem,hlength⟩ := hfunctions.exists_nodup
  obtain ⟨qs,hsorted,hclass,hrel⟩ := hclasses
  obtain ⟨ms,hnodup',hmem',hlength'⟩ := exists_methods (hsorted.imp Place.Before.ne) hrel
  refine ⟨fs ++ ms,List.nodup_append.mpr ⟨hnodup,hnodup',?_⟩,fun p => ?_,?_⟩
  · rintro p hf _ hm rfl
    obtain ⟨c,b,hc⟩ := (hclass _).mp ((hmem' p).mp hm).2
    rw [((hmem p).mp hf).2] at hc
    cases hc
  · rw [List.mem_append, hmem, hmem', hclass, ← and_or_left]
  · rw [List.length_append, hlength, hlength']

end DocSnapshot.Record
