import DocSnapshot.Python.Node

/-! How deep a tree is nested, found by a walk that needs no recursion over the tree. -/
namespace DocSnapshot.Python

namespace Node

mutual
def size : Node → Nat
  | .mk _ _ _ _ _ _ children => sizeAll children + 1

def sizeAll : List Node → Nat
  | [] => 0
  | n :: rest => size n + sizeAll rest
end

theorem size_eq (n : Node) : n.size = sizeAll n.children + 1 := by
  cases n; simp [size, children]

end Node

structure Cursor where
  node : Node
  right : List Node
  above : List (Node × List Node)

namespace Cursor

def root (n : Node) : Cursor := ⟨n, [], []⟩

def firstChild? (c : Cursor) : Option Cursor :=
  match c.node.children with
  | [] => none
  | n :: rest => some ⟨n, rest, (c.node, c.right) :: c.above⟩

def nextSibling? (c : Cursor) : Option Cursor :=
  match c.right with
  | [] => none
  | n :: rest => some { c with node := n, right := rest }

def parent? (c : Cursor) : Option Cursor :=
  match c.above with
  | [] => none
  | (n, right) :: above => some ⟨n, right, above⟩

private def pendingAbove : List (Node × List Node) → Nat
  | [] => 0
  | (_, right) :: above => Node.sizeAll right + pendingAbove above

def after (c : Cursor) : Nat := Node.sizeAll c.right + pendingAbove c.above

/-- The next node outside the present tree and its depth: a sibling, or that of an ancestor. -/
def leave? (c : Cursor) (depth : Nat) : Option (Cursor × Nat) :=
  match c.nextSibling? with
  | some next => some (next, depth)
  | none =>
    match h : c.parent? with
    | none => none
    | some up => leave? up (depth - 1)
termination_by c.above.length
decreasing_by
  unfold parent? at h
  split at h <;> simp_all
  subst h; simp

theorem size_add_after_firstChild? {c child : Cursor} (h : c.firstChild? = some child) :
    child.node.size + child.after + 1 = c.node.size + c.after := by
  unfold firstChild? at h
  split at h
  · simp at h
  · next n rest hc =>
    cases h
    simp [after, pendingAbove, Node.size_eq c.node, hc, Node.sizeAll]
    omega

theorem after_parent? {c up : Cursor} (h : c.parent? = some up) (hr : c.right = []) :
    up.after = c.after := by
  unfold parent? at h
  split at h
  · simp at h
  · next n right above ha =>
    cases h
    simp [after, hr, ha, pendingAbove, Node.sizeAll]

theorem size_add_after_leave? {c next : Cursor} {depth d : Nat}
    (h : c.leave? depth = some (next, d)) : next.node.size + next.after = c.after := by
  fun_induction leave? c depth with
  | case1 c depth n hn =>
    obtain ⟨rfl, rfl⟩ := by simpa using h
    unfold nextSibling? at hn
    split at hn
    · simp at hn
    · next s rest hr =>
      cases hn
      simp [after, hr, Node.sizeAll, Nat.add_assoc]
  | case2 => simp at h
  | case3 c depth hn up hp ih =>
    have hr : c.right = [] := by
      unfold nextSibling? at hn
      split at hn
      · assumption
      · simp at hn
    rw [ih h, after_parent? hp hr]

def firstBelow (limit : Nat) (c : Cursor) (depth : Nat) : Option Node :=
  if limit < depth then some c.node
  else match h : c.firstChild? with
    | some child => firstBelow limit child (depth + 1)
    | none =>
      match _hl : c.leave? depth with
      | some (next, d) => firstBelow limit next d
      | none => none
termination_by c.node.size + c.after
decreasing_by
  · have := size_add_after_firstChild? h
    omega
  · have := size_add_after_leave? _hl
    have := Node.size_eq c.node
    omega

end Cursor

namespace Node

def maxDepth : Nat := 400

def tooDeep? (n : Node) : Option Node := (Cursor.root n).firstBelow maxDepth 0

end Node

end DocSnapshot.Python
