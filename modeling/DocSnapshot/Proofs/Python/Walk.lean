import Mathlib.Data.List.Lex
import Mathlib.Logic.Function.Iterate
import DocSnapshot.Proofs.Python.Traversal
import DocSnapshot.Python.Module

/-! The walk that looks for a node too deep, move by move. The cursor always stands at a place of
the tree, the count of levels is the length of that place, and every node that comes before it has
been found to lie within the limit. -/
namespace DocSnapshot.Python

namespace Place

variable {p q : Place} {i : Nat}

def Covers (p q : Place) : Prop := q.Before p ∨ p <+: q

private theorem before_below (p : Place) (i : Nat) (r : Place) : p.Before (p ++ i :: r) := by
  conv_lhs => rw [← List.append_nil p]
  exact .append_left _ .nil p

/-- Only the node itself comes between what is before it and its first child. -/
theorem before_first (h : q.Before (p ++ [0])) : q.Before p ∨ q = p := by
  induction p generalizing q with
  | nil =>
    cases h with
    | nil => exact .inr rfl
    | rel hj => exact absurd hj (Nat.not_lt_zero _)
    | cons h => cases h
  | cons k p ih =>
    cases h with
    | nil => exact .inl .nil
    | rel hj => exact .inl (.rel hj)
    | cons h =>
      rcases ih h with hbefore | rfl
      · exact .inl (.cons hbefore)
      · exact .inr rfl

/-- All that comes before the next sibling of a node is covered by the node. -/
theorem covers_of_before_next (h : q.Before (p ++ [i + 1])) : Covers (p ++ [i]) q := by
  induction p generalizing q with
  | nil =>
    cases h with
    | nil => exact .inl .nil
    | @rel j r _ _ hj =>
      rcases Nat.lt_succ_iff_lt_or_eq.mp hj with hlt | rfl
      · exact .inl (.rel hlt)
      · exact .inr ⟨r,rfl⟩
    | cons h => cases h
  | cons k p ih =>
    cases h with
    | nil => exact .inl .nil
    | rel hj => exact .inl (.rel hj)
    | cons h =>
      rcases ih h with hbefore | ⟨r,rfl⟩
      · exact .inl (.cons hbefore)
      · exact .inr ⟨r,rfl⟩

/-- What a node covers is covered by any of its children, unless it is at or below a later one. -/
theorem Covers.child (h : p.Covers q) (i : Nat) :
    Covers (p ++ [i]) q ∨ ∃ j r, i < j ∧ q = p ++ j :: r := by
  rcases h with hbefore | ⟨r,rfl⟩
  · exact .inl (.inl (.append_right _ [i] hbefore))
  · cases r with
    | nil =>
      rw [List.append_nil]
      exact .inl (.inl (before_below p i []))
    | cons j r =>
      rcases lt_trichotomy i j with hlt | rfl | hlt
      · exact .inr ⟨j,r,hlt,rfl⟩
      · exact .inl (.inr ⟨r,by rw [List.append_assoc]; rfl⟩)
      · exact .inl (.inl (.append_left _ (.rel hlt) p))

end Place

/-- Whether a cursor stands at a place of a tree: the node there is its node, and what it holds
right of that and above it is what the tree holds there. -/
inductive Cursor.StandsAt (root : Node) : Cursor → Place → Prop
  | root : (Cursor.root root).StandsAt root []
  | child {c : Cursor} {p : Place} {left right : List Node} {n : Node} : c.StandsAt root p →
      c.node.children = left ++ n :: right →
      Cursor.StandsAt root ⟨n, right, (c.node, c.right) :: c.above⟩ (p ++ [left.length])

namespace Cursor

variable {root : Node} {c : Cursor} {p : Place}

theorem StandsAt.at? (h : c.StandsAt root p) : root.at? p = some c.node := by
  induction h with
  | root => rfl
  | @child c p left right n _ hchildren ih =>
    rw [Node.at?_append, ih, Option.bind_some, Node.at?, hchildren]
    simp [Node.at?]

theorem StandsAt.firstChild? {child : Cursor} (h : c.StandsAt root p)
    (hc : c.firstChild? = some child) : child.StandsAt root (p ++ [0]) := by
  rw [Cursor.firstChild?] at hc
  split at hc
  · cases hc
  · next n rest hchildren =>
    cases hc
    have hnone : c.node.children = [] ++ n :: rest := hchildren
    exact .child h hnone

theorem StandsAt.nextSibling? {next : Cursor} (h : c.StandsAt root p)
    (hc : c.nextSibling? = some next) :
    ∃ q i, p = q ++ [i] ∧ next.StandsAt root (q ++ [i + 1]) := by
  cases h with
  | root => cases hc
  | @child c q left right n hup hchildren =>
    cases right with
    | nil => cases hc
    | cons m rest =>
      cases hc
      refine ⟨q,left.length,rfl,?_⟩
      have hnext : c.node.children = (left ++ [n]) ++ m :: rest := by
        rw [hchildren, List.append_assoc]
        rfl
      simpa using StandsAt.child hup hnext

theorem StandsAt.parent? {up : Cursor} (h : c.StandsAt root p) (hc : c.parent? = some up) :
    ∃ q left, p = q ++ [left.length] ∧ up.StandsAt root q ∧
      up.node.children = left ++ c.node :: c.right := by
  cases h with
  | root => cases hc
  | @child c q left right n hup hchildren =>
    cases hc
    exact ⟨q,left,rfl,hup,hchildren⟩

theorem StandsAt.eq_nil (h : c.StandsAt root p) (hc : c.parent? = none) : p = [] := by
  cases h with
  | root => rfl
  | child => cases hc

end Cursor

/-- How far a walk has come: about to look at a node, done with the tree of a node, or at its end
with what it has found. The cursor comes with the count of levels. -/
inductive Walk where
  | entering (c : Cursor) (depth : Nat)
  | leaving (c : Cursor) (depth : Nat)
  | ended (found : Option Node)

namespace Walk

def step (limit : Nat) : Walk → Walk
  | .entering c depth =>
    if limit < depth then .ended (some c.node)
    else match c.firstChild? with
      | some child => .entering child (depth + 1)
      | none => .leaving c depth
  | .leaving c depth =>
    match c.nextSibling? with
    | some next => .entering next depth
    | none =>
      match c.parent? with
      | some up => .leaving up (depth - 1)
      | none => .ended none
  | .ended found => .ended found

def answer (limit : Nat) : Walk → Option Node
  | .entering c depth => c.firstBelow limit depth
  | .leaving c depth => (c.leave? depth).bind fun (next, d) => next.firstBelow limit d
  | .ended found => found

/-- No move changes what will be found. -/
theorem answer_step (limit : Nat) (w : Walk) : (w.step limit).answer limit = w.answer limit := by
  cases w with
  | entering c depth =>
    rw [step, answer, Cursor.firstBelow]
    split
    · rfl
    · cases hchild : c.firstChild? with
      | some child => rfl
      | none =>
        cases hleave : c.leave? depth with
        | none => simp [answer, hleave]
        | some next => simp [answer, hleave]
  | leaving c depth =>
    rw [step, answer, Cursor.leave?]
    cases hnext : c.nextSibling? with
    | some next => rfl
    | none =>
      cases hup : c.parent? with
      | none => rfl
      | some up => rfl
  | ended found => rfl

def remaining : Walk → Nat
  | .entering c _ => 2 * (c.node.size + c.after) + c.above.length
  | .leaving c _ => 2 * c.after + c.above.length + 1
  | .ended _ => 0

private theorem after_nextSibling? {c next : Cursor} (h : c.nextSibling? = some next) :
    next.node.size + next.after = c.after ∧ next.above = c.above := by
  have hleave : c.leave? 0 = some (next, 0) := by
    rw [Cursor.leave?, h]
  refine ⟨Cursor.size_add_after_leave? hleave,?_⟩
  rw [Cursor.nextSibling?] at h
  split at h
  · cases h
  · cases h
    rfl

private theorem length_above_firstChild? {c child : Cursor} (h : c.firstChild? = some child) :
    child.above.length = c.above.length + 1 := by
  rw [Cursor.firstChild?] at h
  split at h <;> cases h
  rfl

private theorem length_above_parent? {c up : Cursor} (h : c.parent? = some up) :
    c.above.length = up.above.length + 1 := by
  rw [Cursor.parent?] at h
  split at h
  · cases h
  · next habove =>
    cases h
    rw [habove, List.length_cons]

theorem remaining_step (limit : Nat) (w : Walk) (h : ∀ found, w ≠ .ended found) :
    (w.step limit).remaining < w.remaining := by
  cases w with
  | entering c depth =>
    have hsize := Node.size_eq c.node
    rw [step]
    split
    · simp only [remaining]
      omega
    · cases hchild : c.firstChild? with
      | some child =>
        have hafter := Cursor.size_add_after_firstChild? hchild
        have habove := length_above_firstChild? hchild
        simp only [remaining]
        omega
      | none =>
        simp only [remaining]
        omega
  | leaving c depth =>
    rw [step]
    cases hnext : c.nextSibling? with
    | some next =>
      obtain ⟨hafter,habove⟩ := after_nextSibling? hnext
      simp only [remaining, habove]
      omega
    | none =>
      cases hup : c.parent? with
      | some up =>
        have hafter := Cursor.after_parent? hup (Cursor.right_of_nextSibling? hnext)
        have habove := length_above_parent? hup
        simp only [remaining]
        omega
      | none =>
        simp only [remaining]
        omega
  | ended found => exact absurd rfl (h found)

/-- A walk ends, with what it was to find. -/
theorem iterate_step (limit : Nat) (w : Walk) :
    ∃ k ≤ w.remaining, (step limit)^[k] w = .ended (w.answer limit) := by
  induction hn : w.remaining using Nat.strong_induction_on generalizing w with
  | _ n ih =>
    subst hn
    by_cases hended : ∃ found, w = .ended found
    · obtain ⟨found,rfl⟩ := hended
      exact ⟨0,Nat.zero_le _,rfl⟩
    · have hless := remaining_step limit w fun found h => hended ⟨found,h⟩
      obtain ⟨k,hk,hrun⟩ := ih _ hless (w.step limit) rfl
      refine ⟨k + 1,by omega,?_⟩
      rw [Function.iterate_succ_apply, hrun, answer_step]

end Walk

section Sound

variable {root : Node} {limit : Nat}

/-- Whether the nodes of a tree at certain places lie within a limit. -/
def Node.Within (root : Node) (limit : Nat) (P : Python.Place → Prop) : Prop :=
  ∀ q m, root.at? q = some m → P q → q.length ≤ limit

/-- Whether a node at a place is the first one of a tree, in document order, with that many levels
above it. -/
structure Node.FirstAtDepth (root : Node) (depth : Nat) (p : Python.Place) (n : Node) : Prop where
  found : root.at? p = some n
  deep : p.length = depth
  first : ∀ q m, root.at? q = some m → q.length = depth → ¬q.Before p

/-- What holds of a walk through a tree at any time: the cursor stands in the tree, the levels are
counted right, and what has been met lies within the limit. -/
def Walk.Sound (root : Node) (limit : Nat) : Walk → Prop
  | .entering c depth => ∃ p, c.StandsAt root p ∧ depth = p.length ∧
      root.Within limit fun q => q.Before p
  | .leaving c depth => ∃ p, c.StandsAt root p ∧ depth = p.length ∧ root.Within limit p.Covers
  | .ended none => root.Within limit fun _ => True
  | .ended (some n) => ∃ p, root.FirstAtDepth (limit + 1) p n

/-- There is a node at every place above a node. -/
theorem Node.exists_above {n : Node} {p q : Python.Place} (h : root.at? (p ++ q) = some n) :
    ∃ m, root.at? p = some m ∧ m.at? q = some n := by
  rw [Node.at?_append] at h
  exact Option.bind_eq_some_iff.mp h

private theorem firstAtDepth_of_lt {n : Node} {p : Place} (hn : root.at? p = some n)
    (hdeep : limit < p.length) (hbefore : root.Within limit fun q => q.Before p) :
    root.FirstAtDepth (limit + 1) p n := by
  refine ⟨hn,?_,fun q m hm hq hlt => ?_⟩
  · obtain ⟨q,i,rfl⟩ : ∃ q i, p = q ++ [i] := by
      rcases List.eq_nil_or_concat p with rfl | ⟨q,i,rfl⟩
      · exact absurd hdeep (Nat.not_lt_zero limit)
      · exact ⟨q,i,List.concat_eq_append⟩
    obtain ⟨m,hm,-⟩ := Node.exists_above hn
    have hparent := hbefore q m hm (Place.before_below q i [])
    rw [List.length_append] at hdeep ⊢
    exact Nat.le_antisymm (Nat.succ_le_succ hparent) hdeep
  · have hle := hbefore q m hm hlt
    omega

namespace Walk

private theorem at?_of_firstChild? {c : Cursor} {n : Node} {j : Nat} {r : Place}
    (h : c.firstChild? = none) : c.node.at? (j :: r) ≠ some n := by
  rw [Cursor.firstChild?] at h
  split at h
  · next hchildren => simp [Node.at?, hchildren]
  · cases h

private theorem sound_enter {c : Cursor} {depth : Nat} (hdepth : depth ≤ limit)
    (h : Sound root limit (.entering c depth)) :
    Sound root limit (match c.firstChild? with
      | some child => .entering child (depth + 1)
      | none => .leaving c depth) := by
  -- A walk goes into a node within the limit, or passes by if there is nothing below.
  obtain ⟨p,hstands,rfl,hbefore⟩ := h
  cases hchild : c.firstChild? with
  | some child =>
    refine ⟨p ++ [0],hstands.firstChild? hchild,by simp,fun q m hm hq => ?_⟩
    rcases Place.before_first hq with hq | rfl
    · exact hbefore q m hm hq
    · exact hdepth
  | none =>
    refine ⟨p,hstands,rfl,fun q m hm hq => ?_⟩
    rcases hq with hq | ⟨r,rfl⟩
    · exact hbefore q m hm hq
    · obtain ⟨m',hm',hbelow⟩ := Node.exists_above hm
      cases hstands.at?.symm.trans hm'
      cases r with
      | nil => simpa using hdepth
      | cons j r => exact absurd hbelow (at?_of_firstChild? hchild)

private theorem sound_leave {c : Cursor} {depth : Nat}
    (h : Sound root limit (.leaving c depth)) :
    Sound root limit (step limit (.leaving c depth)) := by
  -- A walk goes on to the next sibling, up if there is none, and ends at the root.
  obtain ⟨p,hstands,rfl,hcovers⟩ := h
  rw [step]
  cases hnext : c.nextSibling? with
  | some next =>
    obtain ⟨q,i,rfl,hthere⟩ := hstands.nextSibling? hnext
    refine ⟨q ++ [i + 1],hthere,by simp,fun r m hm hr => ?_⟩
    exact hcovers r m hm (Place.covers_of_before_next hr)
  | none =>
    cases hup : c.parent? with
    | some up =>
      obtain ⟨q,left,rfl,hthere,hchildren⟩ := hstands.parent? hup
      refine ⟨q,hthere,by simp,fun r m hm hr => ?_⟩
      rcases hr.child left.length with hr | ⟨j,r,hj,rfl⟩
      · exact hcovers r m hm hr
      · -- The node left was the last child, so there is nothing at a later index.
        obtain ⟨m',hm',hbelow⟩ := Node.exists_above hm
        cases hthere.at?.symm.trans hm'
        have hlast : up.node.children[j]? = none := by
          rw [hchildren, Cursor.right_of_nextSibling? hnext, List.getElem?_eq_none_iff,
            List.length_append]
          exact hj
        simp [Node.at?, hlast] at hbelow
    | none =>
      obtain rfl := hstands.eq_nil hup
      exact fun r m hm _ => hcovers r m hm (.inr (List.nil_prefix))

theorem Sound.step {w : Walk} (h : w.Sound root limit) : (w.step limit).Sound root limit := by
  cases w with
  | entering c depth =>
    rw [Walk.step]
    split
    · next hdeep =>
      obtain ⟨p,hstands,rfl,hbefore⟩ := h
      exact ⟨p,firstAtDepth_of_lt hstands.at? hdeep hbefore⟩
    · next hdeep => exact sound_enter (Nat.not_lt.mp hdeep) h
  | leaving c depth => exact sound_leave h
  | ended found => exact h

/-- Whether the cursor of a walk stands at a place of a tree, with the depth of that place for the
count of levels. There is a level to take off whenever it can go up. -/
def Counted (root : Node) : Walk → Prop
  | .entering c depth | .leaving c depth =>
    (∃ p, c.StandsAt root p ∧ root.at? p = some c.node ∧ depth = p.length) ∧
      ∀ up, c.parent? = some up → 0 < depth
  | .ended _ => True

theorem Sound.counted {w : Walk} (h : w.Sound root limit) : w.Counted root := by
  have hcounted {c : Cursor} {p : Place} (hstands : c.StandsAt root p) :
      (∃ q, c.StandsAt root q ∧ root.at? q = some c.node ∧ p.length = q.length) ∧
        ∀ up, c.parent? = some up → 0 < p.length := by
    refine ⟨⟨p,hstands,hstands.at?,rfl⟩,fun up hup => ?_⟩
    obtain ⟨q,left,rfl,-⟩ := hstands.parent? hup
    simp
  cases w with
  | entering c depth =>
    obtain ⟨p,hstands,rfl,-⟩ := h
    exact hcounted hstands
  | leaving c depth =>
    obtain ⟨p,hstands,rfl,-⟩ := h
    exact hcounted hstands
  | ended found => trivial

def start (root : Node) : Walk := .entering (.root root) 0

theorem sound_start : (start root).Sound root limit :=
  ⟨[],.root,rfl,fun _ _ _ hq => nomatch hq⟩

theorem sound_iterate (root : Node) (limit k : Nat) :
    ((step limit)^[k] (start root)).Sound root limit :=
  Function.Iterate.rec (Sound root limit) sound_start (fun _ h => h.step) k

end Walk

theorem Node.FirstAtDepth.unique {n m : Node} {depth : Nat} {p q : Python.Place}
    (hp : root.FirstAtDepth depth p n) (hq : root.FirstAtDepth depth q m) : n = m := by
  obtain rfl : p = q := by
    rcases lt_trichotomy (p : List Nat) q with hlt | heq | hlt
    · exact absurd hlt (hq.first p n hp.found hp.deep)
    · exact heq
    · exact absurd hlt (hp.first q m hq.found hq.deep)
  exact Option.some_inj.mp (hp.found.symm.trans hq.found)

private theorem sound_tooDeep? (root : Node) :
    (Walk.ended root.tooDeep?).Sound root Node.maxDepth := by
  obtain ⟨k,-,hrun⟩ := Walk.iterate_step Node.maxDepth (.start root)
  have hsound := Walk.sound_iterate root Node.maxDepth k
  rw [hrun] at hsound
  exact hsound

private theorem within_of_tooDeep? (h : root.tooDeep? = none) :
    ∀ p n, root.at? p = some n → p.length ≤ Node.maxDepth := by
  have hsound := sound_tooDeep? root
  rw [h] at hsound
  exact fun p n hn => hsound p n hn trivial

theorem tooDeep?_eq_some_iff {n : Node} :
    root.tooDeep? = some n ↔ ∃ p, root.FirstAtDepth (Node.maxDepth + 1) p n := by
  constructor
  · intro h
    have hsound := sound_tooDeep? root
    rw [h] at hsound
    exact hsound
  · rintro ⟨p,hp⟩
    cases h : root.tooDeep? with
    | none =>
      have hle := within_of_tooDeep? h p n hp.found
      rw [hp.deep] at hle
      exact absurd hle (Nat.not_succ_le_self _)
    | some m =>
      have hsound := sound_tooDeep? root
      rw [h] at hsound
      obtain ⟨q,hq⟩ := hsound
      rw [hq.unique hp]

theorem tooDeep?_eq_none_iff_within :
    root.tooDeep? = none ↔ ∀ p n, root.at? p = some n → p.length ≤ Node.maxDepth := by
  refine ⟨within_of_tooDeep?,fun h => ?_⟩
  cases hfound : root.tooDeep? with
  | none => rfl
  | some n =>
    obtain ⟨p,hp⟩ := tooDeep?_eq_some_iff.mp hfound
    have hle := h p n hp.found
    rw [hp.deep] at hle
    exact absurd hle (Nat.not_succ_le_self _)

end Sound

section Reading

variable {root : Node}

/-- Reads a tree unless it is nested too deep. The reader may call itself once a level: to look for
errors in a tree that had to be mended, or to lower it. -/
def readShallow {α : Type} (read : Node → Except ParseError α) (root : Node) :
    Except ParseError α :=
  match root.tooDeep? with
  | some n => .error (.tooDeep n.position)
  | none => read root

def lowered (root : Node) : Except ParseError (List Stmt) :=
  match Stmt.misplaced? (Stmt.ofBlock root) with
  | some p => .error (.misplacedParameter p)
  | none => .ok (Stmt.ofBlock root)

theorem ofTree_eq (root : Node) : ofTree root = readShallow lowered root := by
  rw [ofTree, readShallow]
  rfl

private theorem tooDeep_ne_lowered {e : ParseError} (h : lowered root = .error e) :
    e.reason ≠ "too many nested expressions" := by
  rw [lowered] at h
  split at h
  · cases h
    rw [ParseError.reason]
    decide
  · cases h

/-- A tree is refused for its depth exactly if the walk finds a node too deep. -/
theorem ofTree_tooDeep_iff {e : ParseError} :
    (ofTree root = .error e ∧ e.reason = "too many nested expressions") ↔
      ∃ n, root.tooDeep? = some n ∧ e = .tooDeep n.position := by
  rw [ofTree_eq, readShallow]
  cases root.tooDeep? with
  | some n =>
    constructor
    · rintro ⟨⟨⟩,-⟩
      exact ⟨n,rfl,rfl⟩
    · rintro ⟨m,⟨⟩,rfl⟩
      exact ⟨rfl,rfl⟩
  | none =>
    refine iff_of_false ?_ (by simp)
    rintro ⟨h,hreason⟩
    exact tooDeep_ne_lowered h hreason

/-- The walk ends after at most two moves a node. All along the cursor stands in the tree and its
levels are counted right, so the count never goes below zero. Nothing is found exactly if no node
has more than 400 levels above it; otherwise it is the first node with 401, and a tree is refused
where that node starts, without being read in any other way. -/
theorem tooDeep?_finds_first (root : Node) :
    (∃ k ≤ 2 * root.size, (Walk.step 400)^[k] (.start root) = .ended root.tooDeep?) ∧
    (∀ k, ((Walk.step 400)^[k] (.start root)).Counted root) ∧
    (root.tooDeep? = none ↔ ∀ p n, root.at? p = some n → p.length ≤ 400) ∧
    (∀ n, root.tooDeep? = some n ↔ ∃ p, root.FirstAtDepth 401 p n) ∧
    ((∃ e, ofTree root = .error e ∧ e.reason = "too many nested expressions") ↔
      ∃ p n, root.at? p = some n ∧ 400 < p.length) ∧
    (∀ e, (ofTree root = .error e ∧ e.reason = "too many nested expressions") ↔
      ∃ p n, root.FirstAtDepth 401 p n ∧ e = .tooDeep ⟨n.row + 1, n.column + 1⟩) ∧
    (∀ source, Node.parse? source = some root → parse source = ofTree root) ∧
    ofTree root = readShallow lowered root ∧
    ∀ (α : Type) (read : Node → Except ParseError α),
      (∀ p n, root.FirstAtDepth 401 p n →
        readShallow read root = .error (.tooDeep ⟨n.row + 1, n.column + 1⟩)) ∧
      ((∀ p n, root.at? p = some n → p.length ≤ 400) → readShallow read root = read root) := by
  have hnone : root.tooDeep? = none ↔ ∀ p n, root.at? p = some n → p.length ≤ 400 :=
    tooDeep?_eq_none_iff_within
  have hsome {n : Node} : root.tooDeep? = some n ↔ ∃ p, root.FirstAtDepth 401 p n :=
    tooDeep?_eq_some_iff
  refine ⟨Walk.iterate_step 400 (.start root),fun k => (Walk.sound_iterate root 400 k).counted,
    hnone,fun n => hsome,?_,fun e => ?_,fun source hsource => ?_,ofTree_eq root,
    fun α read => ⟨fun p n hn => ?_,fun h => ?_⟩⟩
  · simp only [ofTree_tooDeep_iff]
    cases hfound : root.tooDeep? with
    | none =>
      refine iff_of_false (by simp) ?_
      rintro ⟨p,n,hn,hdeep⟩
      exact absurd (hnone.mp hfound p n hn) (Nat.not_le.mpr hdeep)
    | some n =>
      obtain ⟨p,hp⟩ := hsome.mp hfound
      refine iff_of_true ⟨_,n,rfl,rfl⟩ ⟨p,n,hp.found,?_⟩
      rw [hp.deep]
      exact Nat.lt_succ_self 400
  · rw [ofTree_tooDeep_iff]
    simp only [hsome, Node.position]
    constructor
    · rintro ⟨n,⟨p,hp⟩,rfl⟩
      exact ⟨p,n,hp,rfl⟩
    · rintro ⟨p,n,hp,rfl⟩
      exact ⟨n,⟨p,hp⟩,rfl⟩
  · rw [parse, hsource]
  · rw [readShallow, hsome.mpr ⟨p,hn⟩]
    rfl
  · rw [readShallow, hnone.mpr h]

private def parenthesized : Nat → Nat → Node
  | 0, column => .leaf "integer" "1" none 0 column
  | levels + 1, column =>
    .branch "parenthesized_expression" "" none 0 column [parenthesized levels (column + 1)]

private theorem at?_parenthesized (levels k column : Nat) :
    (parenthesized (k + levels) column).at? (List.replicate k 0) =
      some (parenthesized levels (column + k)) := by
  induction k generalizing column with
  | zero => rw [Nat.zero_add]; rfl
  | succ k ih =>
    rw [Nat.succ_add, List.replicate_succ, Node.at?, parenthesized, Node.children_branch,
      List.getElem?_cons_zero, Option.bind_some, ih, Nat.add_assoc, Nat.add_comm 1 k]

private theorem place_of_parenthesized {levels column : Nat} {q : Place} {m : Node}
    (h : (parenthesized levels column).at? q = some m) :
    q = List.replicate q.length 0 ∧ q.length ≤ levels := by
  induction q generalizing levels column with
  | nil => exact ⟨rfl,Nat.zero_le levels⟩
  | cons i q ih =>
    cases levels with
    | zero => simp [Node.at?, parenthesized] at h
    | succ levels =>
      cases i with
      | zero =>
        obtain ⟨hq,hle⟩ := ih h
        exact ⟨congrArg (0 :: ·) hq,Nat.succ_le_succ hle⟩
      | succ i => simp [Node.at?, parenthesized] at h

theorem tooDeep?_finds_first_parenthesized :
    (parenthesized 400 0).tooDeep? = none ∧
    (parenthesized 401 0).FirstAtDepth 401 (List.replicate 401 0) (parenthesized 0 401) ∧
    ofTree (parenthesized 401 0) = .error (.tooDeep ⟨1, 402⟩) := by
  have hfirst :
      (parenthesized 401 0).FirstAtDepth 401 (List.replicate 401 0) (parenthesized 0 401) := by
    refine ⟨at?_parenthesized 0 401 0,List.length_replicate,fun q m hm hq hbefore => ?_⟩
    obtain ⟨hzeros,-⟩ := place_of_parenthesized hm
    rw [hq] at hzeros
    exact hbefore.ne hzeros
  obtain ⟨-,-,hnone,-⟩ := tooDeep?_finds_first (parenthesized 400 0)
  obtain ⟨-,-,-,-,-,hrefused,-⟩ := tooDeep?_finds_first (parenthesized 401 0)
  refine ⟨hnone.mpr fun p n hn => (place_of_parenthesized hn).2,hfirst,?_⟩
  exact ((hrefused _).mpr ⟨_,_,hfirst,rfl⟩).1

end Reading

end DocSnapshot.Python
