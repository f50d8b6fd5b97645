import DocSnapshot.Proofs.Python.Places
import DocSnapshot.Record.Extraction

/-! Which constants a module binds, and to what. A target binds its names from left to right
whatever is assigned to it. The value shown for a name lies on the path of the name, unless a
sequence further in is as long as a value that could not be taken apart. -/
namespace DocSnapshot.Python
open DocSnapshot.Record (isConstantName)

namespace Target

mutual
def names : Target → List String
  | .name id => [id]
  | .sequence items => namesOf items
  | .other => []

def namesOf : List Target → List String
  | [] => []
  | t :: ts => names t ++ namesOf ts
end

def items : Target → List Target
  | .sequence items => items
  | _ => []

def at? (t : Target) : Place → Option Target
  | [] => some t
  | i :: p => t.items[i]?.bind fun s => s.at? p

def IsConstantAt (t : Target) (p : Place) : Prop :=
  ∃ id, t.at? p = some (.name id) ∧ isConstantName id = true

end Target

def Expr.at? (v : Expr) : Place → Option Expr
  | [] => some v
  | i :: p => (Record.elements? v).bind fun es => es[i]?.bind fun e => e.at? p

namespace Stmt

/-- The names written like constants that a statement assigns to, with its line. -/
def constantNames : Stmt → List (String × Nat)
  | .assign line targets _ =>
    ((targets.flatMap Target.names).filter isConstantName).map fun id => (id, line)
  | _ => []

/-- An assignment of another value to the same targets. -/
def assigning (v : Expr) : Stmt → Stmt
  | .assign line targets _ => .assign line targets v
  | s => s

end Stmt

end DocSnapshot.Python

namespace DocSnapshot.Record
open DocSnapshot.Python (Expr Place Stmt Target)
open DocSnapshot.Python.Stmt (Lists)

section Names

private def entry (c : Constant) : String × Nat := (c.name, c.line)

private def entriesOf (line : Nat) (ids : List String) : List (String × Nat) :=
  (ids.filter isConstantName).map fun id => (id, line)

private theorem entriesOf_append (line : Nat) (ids more : List String) :
    entriesOf line (ids ++ more) = entriesOf line ids ++ entriesOf line more := by
  rw [entriesOf, List.filter_append, List.map_append]
  rfl

mutual
private theorem entries_constantsOf (line : Nat) : (v : Expr) → (t : Target) →
    (constantsOf line v t).map entry = entriesOf line t.names
  | v, .name id => by
    rw [constantsOf, Target.names, entriesOf]
    split
    · next h => simp [h, entry]
    · next h => simp [h]
  | v, .sequence items => by
    rw [constantsOf, Target.names]
    split
    · split
      · next h => exact entries_constantsOfEach line _ items h
      · exact entries_constantsOfAll line v items
    · exact entries_constantsOfAll line v items
  | v, .other => rfl

private theorem entries_constantsOfEach (line : Nat) : (vs : List Expr) → (ts : List Target) →
    vs.length = ts.length →
      (constantsOfEach line vs ts).map entry = entriesOf line (Target.namesOf ts)
  | [], [], _ => rfl
  | v :: vs, t :: ts, h => by
    rw [constantsOfEach, Target.namesOf, List.map_append, entriesOf_append,
      entries_constantsOf line v t, entries_constantsOfEach line vs ts (Nat.succ.inj h)]

private theorem entries_constantsOfAll (line : Nat) (v : Expr) : (ts : List Target) →
    (constantsOfAll line v ts).map entry = entriesOf line (Target.namesOf ts)
  | [] => rfl
  | t :: ts => by
    rw [constantsOfAll, Target.namesOf, List.map_append, entriesOf_append,
      entries_constantsOf line v t, entries_constantsOfAll line v ts]
end

theorem isConstantName_iff (name : String) : isConstantName name = true ↔
    (∃ c ∈ name.toList, Text.isUppercase c = true) ∧
      ∀ c ∈ name.toList, Text.isLowercase c = false := by
  simp [isConstantName]

private theorem entries_ofBody (body : List Stmt) :
    (Structure.ofBody body).constants.map entry = body.flatMap Stmt.constantNames := by
  have htargets (line : Nat) (v : Expr) (targets : List Target) :
      (targets.flatMap (constantsOf line v)).map entry =
        entriesOf line (targets.flatMap Target.names) := by
    induction targets with
    | nil => rfl
    | cons t targets ih =>
      rw [List.flatMap_cons, List.flatMap_cons, List.map_append, entriesOf_append, ih,
        entries_constantsOf]
  rw [Structure.ofBody, List.map_flatMap]
  refine List.flatMap_congr fun s _ => ?_
  cases s with
  | assign line targets v => exact htargets line v targets
  | _ => rfl

theorem constantNames_assigning (s : Stmt) (v : Expr) :
    (s.assigning v).constantNames = s.constantNames := by
  cases s <;> rfl

private theorem flatMap_mapIdx_assigning (body : List Stmt) (values : Nat → Expr) :
    (body.mapIdx fun i s => s.assigning (values i)).flatMap Stmt.constantNames =
      body.flatMap Stmt.constantNames := by
  induction body generalizing values with
  | nil => rfl
  | cons s body ih =>
    rw [List.mapIdx_cons, List.flatMap_cons, List.flatMap_cons, constantNames_assigning,
      ih fun i => values (i + 1)]

end Names

/-- A module lists the upper-case names that its own assignments bind, target by target and name by
name, each with the line of its assignment. What is assigned makes no difference to that. -/
theorem ofBody_lists_constants (body : List Stmt) :
    ((Structure.ofBody body).constants.map fun c => (c.name, c.line)) =
      body.flatMap Stmt.constantNames ∧
    (∀ values : Nat → Expr,
      ((Structure.ofBody (body.mapIdx fun i s => s.assigning (values i))).constants.map
        fun c => (c.name, c.line)) =
      (Structure.ofBody body).constants.map fun c => (c.name, c.line)) ∧
    ∀ name, isConstantName name = true ↔ (∃ c ∈ name.toList, Text.isUppercase c = true) ∧
      ∀ c ∈ name.toList, Text.isLowercase c = false := by
  refine ⟨entries_ofBody body,fun values => ?_,isConstantName_iff⟩
  calc _ = _ := entries_ofBody _
    _ = body.flatMap Stmt.constantNames := flatMap_mapIdx_assigning body values
    _ = _ := (entries_ofBody body).symm

section Paths

def Fits (t : Target) (v : Expr) : Prop :=
  ∃ es, elements? v = some es ∧ es.length = t.items.length

/-- The element of a value that belongs to an item of a target, if they have the same length. -/
def element? (t : Target) (v : Expr) (i : Nat) : Option Expr :=
  (elements? v).bind fun es => if es.length = t.items.length then es[i]? else none

/-- The part of a path along which the value can be taken apart like the target. -/
def agreedPath (t : Target) (v : Expr) : Place → Place
  | [] => []
  | i :: p =>
    match t.items[i]?, element? t v i with
    | some s, some e => i :: agreedPath s e p
    | _, _ => []

/-- The indices of a path at which the value is taken apart. A value that cannot be taken apart is
handed on to the next sequence as it is. -/
def takenPath (t : Target) (v : Expr) : Place → Place
  | [] => []
  | i :: p =>
    match t.items[i]?, element? t v i with
    | some s, some e => i :: takenPath s e p
    | some s, none => takenPath s v p
    | none, _ => []

/-- Whether a value that could not be taken apart along a path is as long as a sequence further in
on the path. -/
def FitsAgain (t : Target) (v : Expr) (p : Place) : Prop :=
  ∃ q i r s w, p = q ++ i :: r ∧ agreedPath t v p <+: q ∧ t.at? q = some s ∧
    v.at? (agreedPath t v p) = some w ∧ Fits s w

/-- What is shown for the name at a path: the expression at the agreed part of the path or, if the
value there fits again, one further in. -/
structure ShownAt (line : Nat) (v : Expr) (t : Target) (p : Place) (c : Constant) : Prop where
  name : t.at? p = some (.name c.name)
  line_eq : c.line = line
  value : ∃ e, v.at? (takenPath t v p) = some e ∧ c.value = valueRepr e
  agreed : agreedPath t v p <+: p
  further : ∃ rest, takenPath t v p = agreedPath t v p ++ rest ∧
    rest.Sublist (p.drop (agreedPath t v p).length)
  exact : takenPath t v p = agreedPath t v p ↔ ¬FitsAgain t v p

variable {t s r : Target} {v e : Expr} {i : Nat} {p : Place}

theorem at?_cons_eq_some_iff :
    t.at? (i :: p) = some r ↔ ∃ s, t.items[i]? = some s ∧ s.at? p = some r := by
  rw [Target.at?, Option.bind_eq_some_iff]

theorem at?_of_element? (h : element? t v i = some e) (p : Place) : v.at? (i :: p) = e.at? p := by
  rw [element?, Option.bind_eq_some_iff] at h
  obtain ⟨es,hes,h⟩ := h
  rw [Option.ite_none_right_eq_some] at h
  rw [Expr.at?, hes, Option.bind_some, h.2, Option.bind_some]

/-- A value fits a target when it has an element for any one item of it. -/
theorem fits_iff (hs : t.items[i]? = some s) : Fits t v ↔ ∃ e, element? t v i = some e := by
  have hi := (List.getElem?_eq_some_iff.mp hs).1
  simp only [element?, Option.bind_eq_some_iff, Option.ite_none_right_eq_some]
  constructor
  · rintro ⟨es,hes,hlength⟩
    exact ⟨es[i],es,hes,hlength,List.getElem?_eq_getElem (hlength ▸ hi)⟩
  · rintro ⟨e,es,hes,hlength,-⟩
    exact ⟨es,hes,hlength⟩

section Steps

variable (hs : t.items[i]? = some s)

include hs

theorem agreedPath_of_element? (he : element? t v i = some e) (p : Place) :
    agreedPath t v (i :: p) = i :: agreedPath s e p := by
  rw [agreedPath, hs, he]

theorem agreedPath_of_none (he : element? t v i = none) (p : Place) :
    agreedPath t v (i :: p) = [] := by
  rw [agreedPath, hs, he]

theorem takenPath_of_element? (he : element? t v i = some e) (p : Place) :
    takenPath t v (i :: p) = i :: takenPath s e p := by
  rw [takenPath, hs, he]

theorem takenPath_of_none (he : element? t v i = none) (p : Place) :
    takenPath t v (i :: p) = takenPath s v p := by
  rw [takenPath, hs, he]

end Steps

theorem prefix_agreedPath (h : t.at? p = some r) : agreedPath t v p <+: p := by
  induction p generalizing t v with
  | nil => exact List.prefix_rfl
  | cons i p ih =>
    obtain ⟨s,hs,hr⟩ := at?_cons_eq_some_iff.mp h
    cases he : element? t v i with
    | some e =>
      rw [agreedPath_of_element? hs he]
      exact (List.prefix_cons_inj i).mpr (ih hr)
    | none =>
      rw [agreedPath_of_none hs he]
      exact List.nil_prefix

theorem takenPath_sublist (h : t.at? p = some r) : (takenPath t v p).Sublist p := by
  induction p generalizing t v with
  | nil => exact List.Sublist.refl _
  | cons i p ih =>
    obtain ⟨s,hs,hr⟩ := at?_cons_eq_some_iff.mp h
    cases he : element? t v i with
    | some e =>
      rw [takenPath_of_element? hs he]
      exact (ih hr).cons_cons i
    | none =>
      rw [takenPath_of_none hs he]
      exact (ih hr).cons i

/-- Behind the agreed part of a path some of the other indices may be taken too. -/
theorem exists_takenPath (h : t.at? p = some r) : ∃ rest,
    takenPath t v p = agreedPath t v p ++ rest ∧
      rest.Sublist (p.drop (agreedPath t v p).length) := by
  induction p generalizing t v with
  | nil => exact ⟨[],rfl,List.nil_sublist _⟩
  | cons i p ih =>
    obtain ⟨s,hs,hr⟩ := at?_cons_eq_some_iff.mp h
    cases he : element? t v i with
    | some e =>
      obtain ⟨rest,hrest,hsub⟩ := ih hr (v := e)
      rw [takenPath_of_element? hs he, agreedPath_of_element? hs he, hrest]
      exact ⟨rest,rfl,hsub⟩
    | none =>
      rw [takenPath_of_none hs he, agreedPath_of_none hs he]
      exact ⟨_,rfl,(takenPath_sublist hr).cons i⟩

/-- A value that is handed on stays whole unless it fits some sequence on the path. -/
theorem takenPath_eq_nil_iff (h : t.at? p = some r) : takenPath t v p = [] ↔
    ¬∃ q i rest s, p = q ++ i :: rest ∧ t.at? q = some s ∧ Fits s v := by
  induction p generalizing t with
  | nil => simp [takenPath]
  | cons i p ih =>
    obtain ⟨s,hs,hr⟩ := at?_cons_eq_some_iff.mp h
    cases he : element? t v i with
    | some e =>
      have hfits : Fits t v := (fits_iff hs).mpr ⟨e,he⟩
      rw [takenPath_of_element? hs he]
      simp only [List.cons_ne_nil, false_iff, not_not]
      exact ⟨[],i,p,t,rfl,rfl,hfits⟩
    | none =>
      have hfits : ¬Fits t v := by
        rw [fits_iff hs, he]
        simp
      rw [takenPath_of_none hs he, ih hr, not_iff_not]
      constructor
      · rintro ⟨q,j,rest,u,rfl,hu,hfit⟩
        exact ⟨i :: q,j,rest,u,rfl,at?_cons_eq_some_iff.mpr ⟨s,hs,hu⟩,hfit⟩
      · rintro ⟨q,j,rest,u,hp,hu,hfit⟩
        cases q with
        | nil =>
          cases hu
          exact absurd hfit hfits
        | cons k q =>
          cases hp
          obtain ⟨s',hs',hu⟩ := at?_cons_eq_some_iff.mp hu
          cases hs.symm.trans hs'
          exact ⟨q,j,rest,u,rfl,hu,hfit⟩

/-- The agreed part of a path is left exactly where the value there fits again. -/
theorem takenPath_eq_agreedPath_iff (h : t.at? p = some r) :
    takenPath t v p = agreedPath t v p ↔ ¬FitsAgain t v p := by
  induction p generalizing t v with
  | nil => simp [takenPath, agreedPath, FitsAgain]
  | cons i p ih =>
    obtain ⟨s,hs,hr⟩ := at?_cons_eq_some_iff.mp h
    cases he : element? t v i with
    | some e =>
      rw [takenPath_of_element? hs he, agreedPath_of_element? hs he, List.cons_inj_right, ih hr,
        not_iff_not]
      rw [FitsAgain, FitsAgain, agreedPath_of_element? hs he, at?_of_element? he]
      constructor
      · rintro ⟨q,j,rest,u,w,rfl,hq,hu,hw,hfit⟩
        exact ⟨i :: q,j,rest,u,w,rfl,(List.prefix_cons_inj i).mpr hq,
          at?_cons_eq_some_iff.mpr ⟨s,hs,hu⟩,hw,hfit⟩
      · rintro ⟨q,j,rest,u,w,hp,hq,hu,hw,hfit⟩
        cases q with
        | nil => simp at hq
        | cons k q =>
          cases hp
          obtain ⟨s',hs',hu⟩ := at?_cons_eq_some_iff.mp hu
          cases hs.symm.trans hs'
          exact ⟨q,j,rest,u,w,rfl,(List.prefix_cons_inj i).mp hq,hu,hw,hfit⟩
    | none =>
      have hagreed := agreedPath_of_none hs he p
      have htaken : takenPath t v (i :: p) = [] ↔ _ := takenPath_eq_nil_iff h
      rw [hagreed, htaken, not_iff_not, FitsAgain, hagreed]
      simp [Expr.at?]

end Paths

section Values

private theorem constantsOfEach_eq (line : Nat) (v : Expr) (vs : List Expr) (ts : List Target)
    (h : vs.length = ts.length) : constantsOfEach line vs ts =
      (ts.mapIdx fun i t => constantsOf line (vs[i]?.getD v) t).flatten := by
  induction ts generalizing vs with
  | nil => cases vs <;> rfl
  | cons t ts ih =>
    cases vs with
    | nil => cases h
    | cons w vs =>
      rw [constantsOfEach, ih vs (Nat.succ.inj h), List.mapIdx_cons, List.flatten_cons]
      simp

private theorem constantsOfAll_eq (line : Nat) (v : Expr) (ts : List Target) :
    constantsOfAll line v ts = (ts.mapIdx fun _ t => constantsOf line v t).flatten := by
  induction ts with
  | nil => rfl
  | cons t ts ih => rw [constantsOfAll, ih, List.mapIdx_cons, List.flatten_cons]

/-- Each item of a sequence is given its element or, where there is none, the whole value. -/
theorem constantsOf_sequence (line : Nat) (v : Expr) (items : List Target) :
    constantsOf line v (.sequence items) = (items.mapIdx fun i t =>
      constantsOf line ((element? (.sequence items) v i).getD v) t).flatten := by
  rw [constantsOf]
  cases hes : elements? v with
  | none =>
    simp only [constantsOfAll_eq, element?, hes, Option.bind_none, Option.getD_none]
  | some es =>
    have helement (i : Nat) : element? (.sequence items) v i =
        if es.length = items.length then es[i]? else none := by
      rw [element?, hes, Option.bind_some, Target.items]
    simp only [helement]
    split
    · next hlength => exact constantsOfEach_eq line v es items hlength
    · exact constantsOfAll_eq line v items

private def TakenAt (line : Nat) (v : Expr) (t : Target) (p : Place) (c : Constant) : Prop :=
  ∃ id e, t.at? p = some (.name id) ∧ v.at? (takenPath t v p) = some e ∧ c = ⟨id, line, valueRepr e⟩

private theorem takenAt_cons {line : Nat} {v : Expr} {t s : Target} {i : Nat} {p : Place}
    {c : Constant} (hs : t.items[i]? = some s)
    (h : TakenAt line ((element? t v i).getD v) s p c) : TakenAt line v t (i :: p) c := by
  obtain ⟨id,e,hname,hvalue,rfl⟩ := h
  refine ⟨id,e,at?_cons_eq_some_iff.mpr ⟨s,hs,hname⟩,?_,rfl⟩
  cases he : element? t v i with
  | some w =>
    rw [he, Option.getD_some] at hvalue
    rw [takenPath_of_element? hs he, at?_of_element? he, hvalue]
  | none =>
    rw [he, Option.getD_none] at hvalue
    rw [takenPath_of_none hs he, hvalue]

mutual
private theorem lists_taken (line : Nat) : (t : Target) → ∀ v : Expr,
    Lists t.IsConstantAt (TakenAt line v t) (constantsOf line v t)
  | .name id => by
    intro v
    have hplace (p : Place) : Target.IsConstantAt (.name id) p ↔
        p = [] ∧ isConstantName id = true := by
      cases p <;> simp [Target.IsConstantAt, Target.at?, Target.items]
    rw [constantsOf]
    split
    · next hupper =>
      exact ⟨[[]],List.pairwise_singleton _ _,fun p => by simp [hplace, hupper],
        .cons ⟨id,v,rfl,rfl,rfl⟩ .nil⟩
    · next hupper => exact ⟨[],.nil,fun p => by simp [hplace, hupper],.nil⟩
  | .sequence items => by
    intro v
    rw [constantsOf_sequence]
    refine Stmt.lists_indexed
      (Q := fun i q => ∃ s, items[i]? = some s ∧ s.IsConstantAt q)
      (S := fun i q c => ∃ s, items[i]? = some s ∧
        TakenAt line ((element? (.sequence items) v i).getD v) s q c) ?_ ?_ ?_
    · intro i ys hi
      rw [List.getElem?_mapIdx, Option.map_eq_some_iff] at hi
      obtain ⟨s,hs,rfl⟩ := hi
      simp only [hs, Option.some.injEq, exists_eq_left']
      exact lists_taken_each line items s (List.mem_of_getElem? hs) _
    · intro p
      rw [List.length_mapIdx]
      constructor
      · rintro ⟨id,hid,hupper⟩
        cases p with
        | nil => cases hid
        | cons i q =>
          obtain ⟨s,hs,hname⟩ := at?_cons_eq_some_iff.mp hid
          exact ⟨i,q,rfl,(List.getElem?_eq_some_iff.mp hs).1,s,hs,id,hname,hupper⟩
      · rintro ⟨i,q,rfl,-,s,hs,id,hname,hupper⟩
        exact ⟨id,at?_cons_eq_some_iff.mpr ⟨s,hs,hname⟩,hupper⟩
    · rintro i q c ⟨s,hs,hc⟩
      exact takenAt_cons hs hc
  | .other => by
    intro v
    refine ⟨[],.nil,fun p => ?_,.nil⟩
    cases p <;> simp [Target.IsConstantAt, Target.at?, Target.items]

private theorem lists_taken_each (line : Nat) : (ts : List Target) → ∀ t ∈ ts, ∀ v : Expr,
    Lists t.IsConstantAt (TakenAt line v t) (constantsOf line v t)
  | [] => List.forall_mem_nil _
  | t :: ts => List.forall_mem_cons.mpr ⟨lists_taken line t,lists_taken_each line ts⟩
end

end Values

/-- The constants of a target are the upper-case names in it, one by one from left to right. Each is
shown with the expression at the part of its own path along which value and target have the same
lengths, exactly unless the expression there, which cannot be taken apart, is as long as a sequence
further in: then one of its elements is shown instead. -/
theorem constantsOf_shows_by_path (line : Nat) (v : Expr) (t : Target) :
    Lists t.IsConstantAt (ShownAt line v t) (constantsOf line v t) := by
  obtain ⟨ps,hsorted,hmem,hrel⟩ := lists_taken line t v
  refine ⟨ps,hsorted,hmem,hrel.imp ?_⟩
  rintro p c ⟨id,e,hname,hvalue,rfl⟩
  exact ⟨hname,rfl,⟨e,hvalue,rfl⟩,prefix_agreedPath hname,exists_takenPath hname,
    takenPath_eq_agreedPath_iff hname⟩

/-- Two items are given three values, and then one of the items three names. -/
example : constantsOf 1
    (.tuple [.constant (.int "1"), .constant (.int "2"), .constant (.int "3")] "")
    (.sequence [.sequence [.name "A", .name "B", .name "C"], .other]) =
    [⟨"A", 1, "1"⟩, ⟨"B", 1, "2"⟩, ⟨"C", 1, "3"⟩] := by decide

end DocSnapshot.Record
