import DocSnapshot.Proofs.Python.Continuation

/-! Comments in a source. Wherever they are added to a tree, they are not noticed: not by those who
take the parts of a node one by one, nor by those who count them or take the first. -/
namespace DocSnapshot.Python
open DocSnapshot.Python.Node (leaf branch)

namespace Node

def isComment (n : Node) : Bool :=
  n.kind = "comment" && n.named && n.field.isNone && n.children.isEmpty

mutual
/-- A tree is another one with comments added. The words are those of before. -/
inductive Commented : (parent n m : Node) → Prop where
  | node {parent n m : Node} (kind : m.kind = n.kind) (named : m.named = n.named)
      (field : m.field = n.field) (words : KeepsWords parent n m)
      (children : CommentedAll n n.children m.children) : Commented parent n m

inductive CommentedAll : (parent : Node) → (cs ds : List Node) → Prop where
  | nil {parent : Node} : CommentedAll parent [] []
  | comment {parent e : Node} {cs ds : List Node} (he : e.isComment = true)
      (rest : CommentedAll parent cs ds) : CommentedAll parent cs (e :: ds)
  | child {parent c d : Node} {cs ds : List Node} (hcd : Commented parent c d)
      (rest : CommentedAll parent cs ds) : CommentedAll parent (c :: cs) (d :: ds)
end

variable {lax : Bool}

/-- A tree is itself with no comments added. -/
theorem commented_refl (n : Node) (parent : Node) : Commented parent n n := by
  induction n using Node.induction generalizing parent with
  | node n ih =>
    have hall (cs : List Node) (hcs : ∀ c ∈ cs, ∀ parent, Commented parent c c) :
        CommentedAll n cs cs := by
      induction cs with
      | nil => exact .nil
      | cons c cs ih' =>
        rw [List.forall_mem_cons] at hcs
        exact .child (hcs.1 n) (ih' hcs.2)
    exact .node rfl rfl rfl ⟨fun _ => rfl,fun _ => rfl,fun _ => rfl⟩ (hall n.children ih)

theorem Gap.admits_comment {e : Node} (gap : Gap) (h : e.isComment = true) :
    gap.admits e = true := by
  simp only [isComment, Bool.and_eq_true, decide_eq_true_eq] at h
  obtain ⟨⟨⟨hkind,-⟩,hfield⟩,hleaf⟩ := h
  simp [Gap.admits, isExtra, hkind, hfield, hleaf]

mutual
/-- Comments are read over. -/
theorem Commented.readsLike : ∀ {parent n m : Node}, Commented parent n m →
    ReadsLike lax parent n m
  | _, _, _, .node kind named field words children =>
    readsLike_iff.mpr ⟨kind,named,field,words,fun _ => children.readsLike⟩

theorem CommentedAll.readsLike : ∀ {parent : Node} {gap : Gap} {cs ds : List Node},
    CommentedAll parent cs ds → ReadsLikeAll lax parent gap cs ds
  | _, _, _, _, .nil => readsLikeAll_nil
  | _, gap, _, _, .comment he rest => readsLikeAll_extra (gap.admits_comment he) rest.readsLike
  | _, _, _, _, .child hcd rest => readsLikeAll_cons hcd.readsLike rest.readsLike
end

mutual
theorem Commented.height_le : ∀ {parent n m : Node}, Commented parent n m → n.height ≤ m.height
  | _, _, _, .node _ _ _ _ children => by
    rw [height_eq, height_eq]
    exact children.heightAll_le

theorem CommentedAll.heightAll_le : ∀ {parent : Node} {cs ds : List Node},
    CommentedAll parent cs ds → heightAll cs ≤ heightAll ds
  | _, _, _, .nil => Nat.le_refl _
  | _, _, _, .comment _ rest => by
    have hrest := rest.heightAll_le
    rw [heightAll]
    omega
  | _, _, _, .child hcd rest => by
    have hhead := hcd.height_le
    have hrest := rest.heightAll_le
    rw [heightAll, heightAll]
    omega
end

end Node

/-- Comments change nothing but lines and dumps, wherever they are added: neither whether the
statements of a module are refused, nor what they say, nor the structure that is read off them. A
comment in a token, which had nothing below it, is one level more; unless that makes the tree too
deep, it is read as before. -/
theorem ofTree_ignores_comments {parent t t' : Node} (hmodule : t.kind = "module")
    (h : Node.Commented parent t t') :
    (Stmt.misplaced? (Stmt.ofBlock t')).isSome = (Stmt.misplaced? (Stmt.ofBlock t)).isSome ∧
    Stmt.bareBody false (Stmt.ofBlock t') = Stmt.bareBody false (Stmt.ofBlock t) ∧
    (Record.Structure.ofBody (Stmt.ofBlock t)).Alike (Record.Structure.ofBody (Stmt.ofBlock t')) ∧
    ((t.tooDeep? = none → t'.tooDeep? = none) → ReadAlike false (ofTree t) (ofTree t')) := by
  have hbare : Stmt.bareBody false (Stmt.ofBlock t') = Stmt.bareBody false (Stmt.ofBlock t) :=
    Stmt.bareBody_of_readsLike h.readsLike (by simp [Node.holdsStatements, hmodule])
  have hmisplaced := congrArg Option.isSome (@Stmt.misplaced?_bareBody false (Stmt.ofBlock t'))
  rw [hbare, Stmt.misplaced?_bareBody, Option.isSome_map, Option.isSome_map] at hmisplaced
  have halike := Record.Structure.ofBody_alike hbare (Stmt.dumped_ofBlock t)
    (Stmt.dumped_ofBlock t')
  -- Comments take no level away, so a tree that is not too deep with them is not without.
  have hshallow : t'.tooDeep? = none → t.tooDeep? = none := by
    rw [Node.tooDeep?_eq_none_iff, Node.tooDeep?_eq_none_iff]
    exact Nat.le_trans h.height_le
  refine ⟨hmisplaced.symm,hbare,halike,fun hdeep => ?_⟩
  exact readAlike_of_bare ⟨hshallow,hdeep⟩ hbare

private def remark : Node := leaf "comment" "# a" none 0 0

private def documented (head list : String) (among before : List Node) : Node :=
  branch "function_definition" (head ++ "\n  'b'") none 0 0
    (leaf "identifier" "f" (some "name") 0 0 ::
      branch "parameters" list (some "parameters") 0 0 (leaf "identifier" "a" none 0 0 :: among) ::
      before ++ [branch "block" "'b'" (some "body") 0 0
        [branch "expression_statement" "'b'" none 0 0 [leaf "string" "'b'" none 0 0]]])

private def plainSource : Node :=
  branch "module" "def f(a):\n  'b'" none 0 0 [documented "def f(a):" "(a)" [] []]

private def remarkedSource : Node :=
  branch "module" "def f(a # a\n):\n  # a\n  'b'" none 0 0
    [documented "def f(a # a\n):\n  # a" "(a # a\n)" [remark] [remark]]

private theorem remarkedSource_commented :
    Node.Commented (leaf "" "" none 0 0) plainSource remarkedSource := by
  refine .node rfl rfl rfl ⟨by decide,by decide,by decide⟩ (.child ?_ .nil)
  refine .node rfl rfl rfl ⟨by decide,by decide,by decide⟩ ?_
  refine .child (Node.commented_refl _ _) (.child ?_ (.comment (by decide) ?_))
  · refine .node rfl rfl rfl ⟨by decide,by decide,by decide⟩ ?_
    exact .child (Node.commented_refl _ _) (.comment (by decide) .nil)
  · exact .child (Node.commented_refl _ _) .nil

theorem ofTree_ignores_comments_documented : plainSource.kind = "module" ∧
    ∃ body body', ofTree plainSource = .ok body ∧ ofTree remarkedSource = .ok body' ∧
      Stmt.bareBody false body' = Stmt.bareBody false body ∧
      (Record.Structure.ofBody body).Alike (Record.Structure.ofBody body') := by
  have hread := (ofTree_ignores_comments rfl remarkedSource_commented).2.2.2
  have hplain : plainSource.tooDeep? = none := (Node.tooDeep?_eq_none_iff _).mpr (by decide)
  have hremarked : remarkedSource.tooDeep? = none := (Node.tooDeep?_eq_none_iff _).mpr (by decide)
  have hbody : ofTree plainSource = .ok (Stmt.ofBlock plainSource) := by
    rw [ofTree, hplain]
    rfl
  have hbody' : ofTree remarkedSource = .ok (Stmt.ofBlock remarkedSource) := by
    rw [ofTree, hremarked]
    rfl
  rw [hbody, hbody'] at hread
  exact ⟨rfl,_,_,hbody,hbody',hread fun _ => hremarked⟩

end DocSnapshot.Python
