import DocSnapshot.Python.Nesting

/-! How deep a tree is. The walk over a tree stops at a node that lies too deep exactly when the
tree has more levels than are read. -/
namespace DocSnapshot.Python

namespace Node

mutual
/-- How many levels lie below a node. -/
def height : Node → Nat
  | .mk _ _ _ _ _ _ children => heightAll children

def heightAll : List Node → Nat
  | [] => 0
  | n :: rest => max (height n + 1) (heightAll rest)
end

theorem height_eq (n : Node) : n.height = heightAll n.children := by
  cases n
  rw [height, children]

/-- The children of a node at some depth stay within a limit when each of them does. -/
theorem add_heightAll_le_iff {limit depth : Nat} (h : depth ≤ limit) (cs : List Node) :
    depth + heightAll cs ≤ limit ↔ ∀ c ∈ cs, depth + 1 + c.height ≤ limit := by
  induction cs with
  | nil => simpa [heightAll] using h
  | cons c rest ih =>
    rw [heightAll, List.forall_mem_cons, ← ih]
    omega

end Node

namespace Cursor

private def FitAbove (limit : Nat) : Nat → List (Node × List Node) → Prop
  | _, [] => True
  | depth, (_, right) :: above =>
    (∀ n ∈ right, depth - 1 + n.height ≤ limit) ∧ FitAbove limit (depth - 1) above

private def FitAfter (limit : Nat) (c : Cursor) (depth : Nat) : Prop :=
  (∀ n ∈ c.right, depth + n.height ≤ limit) ∧ FitAbove limit depth c.above

variable {limit depth : Nat} {c : Cursor}

private theorem fitAfter_parent? {up : Cursor} (hright : c.right = []) (h : c.parent? = some up) :
    FitAfter limit c depth ↔ FitAfter limit up (depth - 1) := by
  rw [parent?] at h
  split at h
  · cases h
  · next n right above habove =>
    cases h
    simp [FitAfter, hright, habove, FitAbove]

theorem right_of_nextSibling? (h : c.nextSibling? = none) : c.right = [] := by
  rw [nextSibling?] at h
  split at h
  · assumption
  · cases h

private theorem fitAfter_leave? :
    FitAfter limit c depth ↔ ∀ next d, c.leave? depth = some (next, d) →
      d + next.node.height ≤ limit ∧ FitAfter limit next d := by
  fun_induction leave? c depth with
  | case1 c depth sibling hsibling =>
    rw [nextSibling?] at hsibling
    split at hsibling
    · cases hsibling
    · next n rest hright =>
      cases hsibling
      simp [FitAfter, hright, and_assoc]
  | case2 c depth hsibling hparent =>
    rw [parent?] at hparent
    split at hparent
    · next habove => simp [FitAfter, right_of_nextSibling? hsibling, habove, FitAbove]
    · cases hparent
  | case3 c depth hsibling up hparent ih =>
    rw [fitAfter_parent? (right_of_nextSibling? hsibling) hparent, ih]

private theorem height_of_firstChild? (h : c.firstChild? = none) : c.node.height = 0 := by
  rw [firstChild?] at h
  split at h
  · next hchildren => rw [Node.height_eq, hchildren, Node.heightAll]
  · cases h

private theorem firstBelow_eq_none_iff :
    firstBelow limit c depth = none ↔ depth + c.node.height ≤ limit ∧ FitAfter limit c depth := by
  fun_induction firstBelow limit c depth with
  | case1 c depth hdeep =>
    simp
    omega
  | case2 c depth hdeep child hchild ih =>
    rw [ih, Node.height_eq c.node, Node.add_heightAll_le_iff (Nat.not_lt.mp hdeep)]
    rw [firstChild?] at hchild
    split at hchild
    · cases hchild
    · next n rest hchildren =>
      cases hchild
      simp [FitAfter, FitAbove, hchildren, and_assoc]
  | case3 c depth hdeep hchild next d hleave ih =>
    have hheight := height_of_firstChild? hchild
    have hafter := @fitAfter_leave? limit depth c
    rw [ih, hafter, hleave]
    simp [hheight, Nat.not_lt.mp hdeep]
  | case4 c depth hdeep hchild hleave =>
    have hheight := height_of_firstChild? hchild
    rw [fitAfter_leave?, hleave]
    simp [hheight, Nat.not_lt.mp hdeep]

end Cursor

/-- A node lies too deep exactly in trees with more levels than are read. -/
theorem Node.tooDeep?_eq_none_iff (n : Node) : n.tooDeep? = none ↔ n.height ≤ maxDepth := by
  rw [tooDeep?, Cursor.firstBelow_eq_none_iff]
  simp [Cursor.root, Cursor.FitAfter, Cursor.FitAbove]

end DocSnapshot.Python
