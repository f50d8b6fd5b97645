import Mathlib.Data.List.Basic
import DocSnapshot.Record.Extraction

/-! Statements without their lines and without the dumps of what is not interpreted, and how much
of the structure of a module is left of them. -/
namespace DocSnapshot.Python
open DocSnapshot.Record (resolveName)

namespace Expr

mutual
def bare : Expr → Expr
  | .name id => .name id
  | .attribute value attr => .attribute value.bare attr
  | .constant value => .constant value
  | .list elements _ => .list (bareAll elements) ""
  | .dict _ => .dict ""
  | .tuple elements _ => .tuple (bareAll elements) ""
  | .other _ => .other ""

def bareAll : List Expr → List Expr
  | [] => []
  | e :: rest => e.bare :: bareAll rest
end

theorem bareAll_eq (es : List Expr) : bareAll es = es.map bare := by
  induction es with
  | nil => rfl
  | cons e rest ih => rw [bareAll, ih, List.map_cons]

end Expr

def Parameter.bare (p : Parameter) : Parameter := { p with typeHint := p.typeHint.map Expr.bare }

def Parameters.bare (ps : Parameters) : Parameters where
  positional := ps.positional.map Parameter.bare
  defaults := ps.defaults.map Expr.bare
  varPositional := ps.varPositional.map Parameter.bare
  keywordOnly := ps.keywordOnly.map fun (p, default) => (p.bare, default.map Expr.bare)
  varKeyword := ps.varKeyword.map Parameter.bare
  misplaced := ps.misplaced.map fun _ => ⟨0, 0⟩

def Function.bare (f : Function) : Function where
  name := f.name
  line := 0
  decorators := f.decorators.map Expr.bare
  isAsync := f.isAsync
  parameters := f.parameters.bare
  returns := f.returns.map Expr.bare

def Class.bare (c : Class) : Class where
  name := c.name
  line := 0
  decorators := c.decorators.map Expr.bare
  bases := c.bases.map Expr.bare

namespace Stmt

def isOther : Stmt → Bool
  | .other => true
  | _ => false

mutual
/-- A statement without lines and dumps. To the `lax` it does not matter how many statements that
are not interpreted stand behind the first one of a body. -/
def bare (lax : Bool) : Stmt → Stmt
  | .imports names => .imports names
  | .importsFrom module names => .importsFrom module names
  | .functionDef f body => .functionDef f.bare (bareBody lax body)
  | .classDef c body => .classDef c.bare (bareBody lax body)
  | .assign _ targets value => .assign 0 targets value.bare
  | .expr value => .expr value.bare
  | .nested blocks => .nested (bareBlocks lax blocks)
  | .other => .other

def bareBody (lax : Bool) : List Stmt → List Stmt
  | [] => []
  | s :: rest => s.bare lax :: bareRest lax rest

def bareRest (lax : Bool) : List Stmt → List Stmt
  | [] => []
  | s :: rest => if lax && s.isOther then bareRest lax rest else s.bare lax :: bareRest lax rest

def bareBlocks (lax : Bool) : List (List Stmt) → List (List Stmt)
  | [] => []
  | b :: rest => bareBody lax b :: bareBlocks lax rest
end

variable {lax : Bool} {β : Type} {f g : Stmt → List β}

mutual
/-- What can be told of the statements of a body one by one, and nothing of those that are not
interpreted, can be told of the bare body. -/
theorem flatMap_walk_bare (hother : g .other = []) :
    (s : Stmt) → (∀ r ∈ walk s, g (r.bare lax) = f r) →
      (walk (s.bare lax)).flatMap g = (walk s).flatMap f
  | .functionDef head body, h => by
    rw [walk, List.forall_mem_cons] at h
    rw [bare, walk, walk, List.flatMap_cons, List.flatMap_cons,
      flatMap_walkAll_bareBody hother body h.2, ← h.1, bare]
  | .classDef head body, h => by
    rw [walk, List.forall_mem_cons] at h
    rw [bare, walk, walk, List.flatMap_cons, List.flatMap_cons,
      flatMap_walkAll_bareBody hother body h.2, ← h.1, bare]
  | .nested blocks, h => by
    rw [walk, List.forall_mem_cons] at h
    rw [bare, walk, walk, List.flatMap_cons, List.flatMap_cons,
      flatMap_walkBlocks_bare hother blocks h.2, ← h.1, bare]
  | .imports names, h => by simpa [bare, walk] using h
  | .importsFrom module names, h => by simpa [bare, walk] using h
  | .assign line targets value, h => by simpa [bare, walk] using h
  | .expr value, h => by simpa [bare, walk] using h
  | .other, h => by simpa [bare, walk] using h

theorem flatMap_walkAll_bareBody (hother : g .other = []) :
    (body : List Stmt) → (∀ r ∈ walkAll body, g (r.bare lax) = f r) →
      (walkAll (bareBody lax body)).flatMap g = (walkAll body).flatMap f
  | [], _ => rfl
  | s :: rest, h => by
    rw [walkAll, List.forall_mem_append] at h
    rw [bareBody, walkAll, walkAll, List.flatMap_append, List.flatMap_append,
      flatMap_walk_bare hother s h.1, flatMap_walkAll_bareRest hother rest h.2]

theorem flatMap_walkAll_bareRest (hother : g .other = []) :
    (body : List Stmt) → (∀ r ∈ walkAll body, g (r.bare lax) = f r) →
      (walkAll (bareRest lax body)).flatMap g = (walkAll body).flatMap f
  | [], _ => rfl
  | s :: rest, h => by
    rw [walkAll, List.forall_mem_append] at h
    have hhead := flatMap_walk_bare hother s h.1
    have hrest := flatMap_walkAll_bareRest hother rest h.2
    rw [bareRest, walkAll, List.flatMap_append]
    split
    · next hdropped =>
      obtain rfl : s = .other := by
        cases s <;> simp [isOther] at hdropped ⊢
      rw [hrest, ← hhead]
      simp [bare, walk, hother]
    · rw [walkAll, List.flatMap_append, hhead, hrest]

theorem flatMap_walkBlocks_bare (hother : g .other = []) :
    (blocks : List (List Stmt)) → (∀ r ∈ walkBlocks blocks, g (r.bare lax) = f r) →
      (walkBlocks (bareBlocks lax blocks)).flatMap g = (walkBlocks blocks).flatMap f
  | [], _ => rfl
  | b :: rest, h => by
    rw [walkBlocks, List.forall_mem_append] at h
    rw [bareBlocks, walkBlocks, walkBlocks, List.flatMap_append, List.flatMap_append,
      flatMap_walkAll_bareBody hother b h.1, flatMap_walkBlocks_bare hother rest h.2]
end

section Picks

variable {γ : Type} {pick : Stmt → Option γ} {k : γ → γ} (hother : pick .other = none)
  (hpick : ∀ s, pick (s.bare lax) = (pick s).map k)

include hother hpick

/-- What is picked from the statements of a body one by one can be picked from the bare body. -/
theorem filterMap_bareBody (body : List Stmt) :
    (bareBody lax body).filterMap pick = (body.filterMap pick).map k := by
  have hcons (s : Stmt) (rest : List Stmt) :
      (s.bare lax :: bareRest lax rest).filterMap pick =
        (pick s).toList.map k ++ (bareRest lax rest).filterMap pick := by
    rw [List.filterMap_cons, hpick]
    cases pick s <;> rfl
  have hrest (rest : List Stmt) :
      (bareRest lax rest).filterMap pick = (rest.filterMap pick).map k := by
    induction rest with
    | nil => rfl
    | cons s rest ih =>
      rw [bareRest]
      split
      · next hdropped =>
        obtain rfl : s = .other := by
          cases s <;> simp [isOther] at hdropped ⊢
        rw [ih, List.filterMap_cons_none hother]
      · rw [hcons, ih, List.filterMap_cons]
        cases pick s <;> rfl
  cases body with
  | nil => rfl
  | cons s rest =>
    rw [bareBody, hcons, hrest, List.filterMap_cons]
    cases pick s <;> rfl

/-- What is picked from all statements of a body can be picked from the bare body. -/
theorem filterMap_walkAll_bareBody (body : List Stmt) :
    (walkAll (bareBody lax body)).filterMap pick = ((walkAll body).filterMap pick).map k := by
  rw [List.filterMap_eq_flatMap_toList, List.filterMap_eq_flatMap_toList, List.map_flatMap]
  refine flatMap_walkAll_bareBody (by rw [hother]; rfl) body fun r _ => ?_
  rw [hpick]
  cases pick r <;> rfl

end Picks

private def misplacedIn? : Stmt → Option Position
  | .functionDef f _ => f.parameters.misplaced
  | _ => none

/-- A body has a misplaced parameter when the bare body has one. -/
theorem misplaced?_bareBody (body : List Stmt) :
    misplaced? (bareBody lax body) = (misplaced? body).map fun _ => ⟨0, 0⟩ := by
  have hmisplaced (body : List Stmt) :
      misplaced? body = ((walkAll body).filterMap misplacedIn?).head? := by
    rw [List.head?_filterMap]
    rfl
  rw [hmisplaced, hmisplaced, filterMap_walkAll_bareBody rfl (fun s => ?_) body, List.head?_map]
  cases s <;> rfl

end Stmt

end DocSnapshot.Python
