import DocSnapshot.Proofs.Python.Extras
import DocSnapshot.Proofs.Python.Places
import DocSnapshot.Proofs.Python.Placement

/-! A walk through the statements of a module meets what a walk through its tree meets. Every import
and every definition of the tree is lowered to one statement, and no other node says anything. -/
namespace DocSnapshot.Python

section Placed

theorem mem_preorder (n m : Node) :
    m ∈ n.preorder ↔ m = n ∨ m ∈ Node.preorderAll n.children := by
  cases n
  simp [Node.preorder, Node.children]

theorem preorder_subset {c : Node} {cs : List Node} (hc : c ∈ cs) :
    ∀ m ∈ c.preorder, m ∈ Node.preorderAll cs := by
  intro m hm
  induction cs with
  | nil => cases hc
  | cons d ds ih =>
    rw [Node.preorderAll, List.mem_append]
    rcases List.mem_cons.mp hc with rfl | hc
    · exact .inl hm
    · exact .inr (ih hc)

def Placed (n : Node) : Prop := ∀ m ∈ n.preorder, m.wellPlaced

theorem Placed.self {n : Node} (h : Placed n) : n.wellPlaced :=
  h n ((mem_preorder n n).mpr (.inl rfl))

theorem Placed.child {n c : Node} (h : Placed n) (hc : c ∈ n.children) : Placed c :=
  fun m hm => h m ((mem_preorder n m).mpr (.inr (preorder_subset hc m hm)))

theorem Placed.admits {n c : Node} (h : Placed n) (hc : c ∈ n.children) :
    n.admits c := by
  have h := h.self
  simp only [Node.wellPlaced, Bool.and_eq_true, List.all_eq_true] at h
  exact h.1.1 c hc

theorem holdsBlock_of_child {n c : Node} (hc : c ∈ n.children) (h : c.holdsBlock) :
    n.holdsBlock := by
  obtain ⟨m,hm,hb⟩ := List.any_eq_true.mp h
  exact List.any_eq_true.mpr ⟨m,(mem_preorder n m).mpr (.inr (preorder_subset hc m hm)),hb⟩

theorem holdsBlock_of_block {n : Node} (h : n.role = .block) : n.holdsBlock :=
  List.any_eq_true.mpr ⟨n,(mem_preorder n n).mpr (.inl rfl),by simpa using h⟩

theorem role_of_isModule {root : Node} (h : root.isModule) : root.role = .root := by
  simp only [Node.isModule, Bool.and_eq_true, decide_eq_true_eq] at h
  exact h.1

theorem placed_of_isModule {root : Node} (h : root.isModule) : Placed root := by
  simp only [Node.isModule, Bool.and_eq_true, List.all_eq_true] at h
  exact h.2

/-- Nodes that no statement can stand in. -/
def Inert (n : Node) : Prop :=
  n.role = .other ∨ n.role = .clause ∧ n.holdsBlock = false

theorem Inert.child {n c : Node} (hn : Inert n) (hc : c ∈ n.children)
    (h : n.admits c) : Inert c := by
  rcases hn with hn | ⟨hn,hno⟩
  · cases hr : c.role <;> simp_all [Node.admits, Inert]
  · have hb : c.holdsBlock = false := by
      refine Bool.eq_false_iff.mpr fun hb => ?_
      simp [holdsBlock_of_child hc hb] at hno
    cases hr : c.role <;> simp_all [Node.admits, Inert]
    simp [holdsBlock_of_block hr] at hb

def Node.Role.Holds : Node.Role → String → Prop
  | .root, kind => kind = "module"
  | .block, kind => kind = "block"
  | .importing, kind => kind = "import_statement" ∨ kind = "import_from_statement" ∨
      kind = "future_import_statement"
  | .definition, kind => kind = "function_definition" ∨ kind = "class_definition"
  | .decorated, kind => kind = "decorated_definition"
  | .compound, kind => Stmt.isCompoundKind kind
  | .clause, kind => Stmt.isClauseKind kind
  | .other, kind => Stmt.isClauseKind kind = false

theorem kind_of_role {n : Node} {r : Node.Role} (h : n.role = r) : r.Holds n.kind := by
  subst h
  unfold Node.role
  split
  case h_15 => split <;> simp_all [Node.Role.Holds]
  all_goals simp_all [Node.Role.Holds, Stmt.isCompoundKind]

theorem inert_of_not_isPart {n c : Node} (h : n.admits c) (hp : c.isPart = false) :
    Inert c := by
  by_cases hk : c.kind = "comment"
  · have hc : Stmt.isClauseKind "comment" = false := by decide
    exact .inl (by simp [Node.role, hk, hc])
  · have hn : c.named = false := by simpa [Node.isPart, hk] using hp
    cases hr : c.role <;> simp_all [Node.admits, Inert]

structure InBody (n : Node) : Prop where
  block : n.role ≠ .block
  root : n.role ≠ .root
  clause : n.role = .clause → n.holdsBlock → n.kind = "case_clause"

theorem inBody_of_admits {p n : Node} (hp : p.role = .root ∨ p.role = .block)
    (h : p.admits n) : InBody n := by
  rcases hp with hp | hp
  · constructor <;> intro hr <;> simp_all [Node.admits]
  · constructor <;> intro hr <;> simp_all [Node.admits]
    exact fun hh => h.resolve_left (by simp [hh]) |>.2

theorem inert_in_compound {p c : Node} (hp : p.role = .compound ∨ p.role = .clause)
    (h : p.admits c) (hb : c.role ≠ .block) (hc : c.role ≠ .clause) : Inert c := by
  cases hr : c.role <;> rcases hp with hp | hp <;> simp_all [Node.admits, Inert]

/-- Under a definition only the body is of interest. -/
theorem inert_in_definition {p c : Node} (hp : p.role = .definition) (h : p.admits c)
    (hf : c.field ≠ some "body") : Inert c := by
  cases hr : c.role <;> simp_all [Node.admits, Inert]

/-- Under decorators only the definition behind them is of interest. -/
theorem inert_in_decorated {p c : Node} (hp : p.role = .decorated) (h : p.admits c)
    (hf : c.field ≠ some "definition" ∨ c.role ≠ .definition) : Inert c := by
  cases hr : c.role <;> simp_all [Node.admits, Inert]

theorem inert_in_import {p c : Node} (hp : p.role = .importing) (h : p.admits c) :
    Inert c := by
  cases hr : c.role <;> simp_all [Node.admits, Inert]

theorem Placed.body {n : Node} (h : Placed n) (hr : n.role = .definition) :
    (n.children.filter (·.field = some "body")).length ≤ 1 ∧
      ∀ c ∈ n.children, c.field = some "body" → c.role = .block := by
  have h := h.self
  simp only [Node.wellPlaced, hr, Bool.and_eq_true, List.all_eq_true, ne_eq, not_true_eq_false,
    decide_false, Bool.false_or, decide_eq_true_eq] at h
  refine ⟨h.1.2.1,fun c hc hf => h.1.2.2 c ?_⟩
  simpa [Node.childrenIn, hf] using hc

theorem Placed.definition {n : Node} (h : Placed n) (hr : n.role = .decorated) :
    (n.children.filter (·.field = some "definition")).length ≤ 1 := by
  have h := h.self
  simp only [Node.wellPlaced, hr, Bool.and_eq_true, ne_eq, not_true_eq_false, decide_false,
    Bool.false_or, decide_eq_true_eq] at h
  exact h.2

theorem role_of_isCompoundKind {n : Node} (h : Stmt.isCompoundKind n.kind) :
    n.role = .compound ∨ n.role = .clause := by
  have hc : Stmt.isClauseKind "case_clause" = true := by decide
  simp only [Stmt.isCompoundKind, List.contains_cons, List.contains_nil, Bool.or_false,
    Bool.or_eq_true, beq_iff_eq] at h
  rcases h with h | h | h | h | h | h | h <;> simp [Node.role, h, hc]

theorem role_of_isClauseKind {n : Node} (h : Stmt.isClauseKind n.kind) :
    n.role = .clause := by
  unfold Node.role
  split
  case h_15 => simp [h]
  all_goals
    rename_i hk
    rw [hk] at h
    exact absurd h (by decide)

theorem ofNode_compound {n : Node} (h : Stmt.isCompoundKind n.kind) :
    Stmt.ofNode n = .nested (Stmt.blocksOf n.children) := by
  have hk := h
  simp only [Stmt.isCompoundKind, List.contains_cons, List.contains_nil, Bool.or_false,
    Bool.or_eq_true, beq_iff_eq] at hk
  rw [Stmt.ofNode_eq]
  rcases hk with hk | hk | hk | hk | hk | hk | hk <;> simp [hk, Stmt.isCompoundKind]

private theorem field_of_filter_le_one {field : String} {c : Node} {cs : List Node}
    (h : ((c :: cs).filter (·.field = some field)).length ≤ 1) (hc : c.field = some field) :
    ∀ d ∈ cs, d.field ≠ some field := by
  intro d hd hf
  have hm : d ∈ cs.filter (·.field = some field) := by simpa [hf] using hd
  have := List.length_pos_of_mem hm
  simp only [hc, decide_true, List.filter_cons_of_pos, List.length_cons] at h
  omega

private theorem filter_tail_le_one {field : String} {c : Node} {cs : List Node}
    (h : ((c :: cs).filter (·.field = some field)).length ≤ 1) :
    (cs.filter (·.field = some field)).length ≤ 1 :=
  Nat.le_trans ((List.sublist_cons_self c cs).filter _).length_le h

end Placed

section Nodes

def Node.at? (n : Node) : Python.Place → Option Node
  | [] => some n
  | i :: p => n.children[i]?.bind fun c => c.at? p

theorem Node.at?_append (n : Node) (p q : Python.Place) :
    n.at? (p ++ q) = (n.at? p).bind fun m => m.at? q := by
  induction p generalizing n with
  | nil => rfl
  | cons i p ih =>
    rw [List.cons_append, Node.at?, Node.at?]
    cases n.children[i]? with
    | none => rfl
    | some c => exact ih c

private theorem preorderAll_eq (cs : List Node) :
    Node.preorderAll cs = (cs.map Node.preorder).flatten := by
  induction cs with
  | nil => rfl
  | cons c cs ih => rw [Node.preorderAll, ih, List.map_cons, List.flatten_cons]

/-- A walk through a tree meets the node at every place once, in document order. -/
theorem lists_preorder (n : Node) :
    Stmt.Lists (fun p => (n.at? p).isSome) (fun p m => n.at? p = some m) n.preorder := by
  induction n using Node.induction with
  | node n ih =>
    have hpreorder : n.preorder = n :: (n.children.map Node.preorder).flatten := by
      cases n
      rw [Node.preorder, preorderAll_eq]
      rfl
    rw [hpreorder]
    refine Stmt.lists_cons (Q := fun p => p ≠ [] ∧ (n.at? p).isSome)
      (S := fun p m => n.at? p = some m) ?_ (fun p => ?_) (fun h => h.1 rfl) rfl fun _ _ hm => hm
    · refine Stmt.lists_indexed
        (Q := fun i q => ∃ c, n.children[i]? = some c ∧ (c.at? q).isSome)
        (S := fun i q m => ∃ c, n.children[i]? = some c ∧ c.at? q = some m) ?_ ?_ ?_
      · intro i ms hi
        rw [List.getElem?_map, Option.map_eq_some_iff] at hi
        obtain ⟨c,hc,rfl⟩ := hi
        simp only [hc, Option.some.injEq, exists_eq_left']
        exact ih c (List.mem_of_getElem? hc)
      · intro p
        cases p with
        | nil => simp
        | cons i q =>
          cases hc : n.children[i]? with
          | none => simp [Node.at?, hc]
          | some c => simpa [Node.at?, hc] using fun _ => (List.getElem?_eq_some_iff.mp hc).1
      · rintro i q m ⟨c,hc,hm⟩
        rw [Node.at?, hc]
        exact hm
    · cases p <;> simp [Node.at?]

theorem Placed.at? {n m : Node} {p : Place} (h : Placed n) (hm : n.at? p = some m) : Placed m := by
  induction p generalizing n with
  | nil =>
    cases hm
    exact h
  | cons i p ih =>
    obtain ⟨c,hc,hm⟩ := Option.bind_eq_some_iff.mp hm
    exact ih (h.child (List.mem_of_getElem? hc)) hm

theorem Inert.at? {n m : Node} {p : Place} (hn : Inert n) (h : Placed n) (hm : n.at? p = some m) :
    Inert m := by
  induction p generalizing n with
  | nil =>
    cases hm
    exact hn
  | cons i p ih =>
    obtain ⟨c,hc,hm⟩ := Option.bind_eq_some_iff.mp hm
    have hmem := List.mem_of_getElem? hc
    exact ih (hn.child hmem (h.admits hmem)) (h.child hmem) hm

/-- A definition inside a definition stands in its body. -/
theorem body_of_definition_below {n c m : Node} {i : Nat} {p : Place} (h : Placed n)
    (hn : n.role = .definition) (hc : n.children[i]? = some c) (hm : c.at? p = some m)
    (hrole : m.role = .definition) : c.field = some "body" := by
  by_contra hfield
  have hmem := List.mem_of_getElem? hc
  have hinert := (inert_in_definition hn (h.admits hmem) hfield).at? (h.child hmem) hm
  rcases hinert with hother | ⟨hclause,-⟩
  · rw [hrole] at hother
    cases hother
  · rw [hrole] at hclause
    cases hclause

end Nodes

section Items

variable {α : Type}

/-- Whether statements say the same as the nodes they are lowered from, where only imports and
definitions say anything of their own. -/
structure Mirrors (f : Node → List α) (g : Stmt → List α) : Prop where
  idle {n : Node} : n.role ≠ .importing ∧ n.role ≠ .definition → f n = []
  importing {n : Node} : n.role = .importing → g (Stmt.ofNode n) = f n
  functionDef (decorators : List Expr) (body : List Stmt) {n : Node} :
    n.kind = "function_definition" → g (.functionDef (Function.ofNode decorators n) body) = f n
  classDef (decorators : List Expr) (body : List Stmt) {n : Node} :
    n.kind = "class_definition" → g (.classDef (Class.ofNode decorators n) body) = f n
  assign (line : Nat) (targets : List Target) (value : Expr) : g (.assign line targets value) = []
  expr (value : Expr) : g (.expr value) = []
  nested (blocks : List (List Stmt)) : g (.nested blocks) = []
  other : g .other = []

section Walk

variable (f : Node → List α) (g : Stmt → List α)

private def treeItems (n : Node) : List α := n.preorder.flatMap f
private def treesItems (cs : List Node) : List α := (Node.preorderAll cs).flatMap f
private def walkItems (s : Stmt) : List α := s.walk.flatMap g
private def bodyItems (body : List Stmt) : List α := (Stmt.walkAll body).flatMap g
private def blockItems (blocks : List (List Stmt)) : List α := blocks.flatMap (bodyItems g)

private theorem treeItems_eq (n : Node) : treeItems f n = f n ++ treesItems f n.children := by
  cases n
  simp [treeItems, treesItems, Node.preorder, Node.children]

private theorem treesItems_nil : treesItems f [] = [] := rfl
private theorem treesItems_cons (c : Node) (cs : List Node) :
    treesItems f (c :: cs) = treeItems f c ++ treesItems f cs := by
  simp [treesItems, treeItems, Node.preorderAll]

private theorem bodyItems_cons (s : Stmt) (rest : List Stmt) :
    bodyItems g (s :: rest) = walkItems g s ++ bodyItems g rest := by
  simp [bodyItems, walkItems, Stmt.walkAll]

private theorem walkBlocks_items (blocks : List (List Stmt)) :
    (Stmt.walkBlocks blocks).flatMap g = blockItems g blocks := by
  induction blocks with
  | nil => rfl
  | cons b rest ih => simp [Stmt.walkBlocks, blockItems, bodyItems, ih]

end Walk

variable {f : Node → List α} {g : Stmt → List α}

private theorem Mirrors.inert (hfg : Mirrors f g) {n : Node} (h : Inert n) : f n = [] := by
  apply hfg.idle
  rcases h with h | ⟨h,-⟩ <;> simp [h]

mutual
private theorem treeItems_inert (hfg : Mirrors f g) : ∀ n : Node,
    Placed n → Inert n → treeItems f n = []
  | .mk kind named field text row column children, h, hi => by
    rw [treeItems_eq, hfg.inert hi, List.nil_append]
    exact treesItems_inert hfg children (fun c hc => h.child hc)
      fun c hc => hi.child hc (h.admits hc)

private theorem treesItems_inert (hfg : Mirrors f g) : ∀ cs : List Node,
    (∀ c ∈ cs, Placed c) → (∀ c ∈ cs, Inert c) → treesItems f cs = []
  | [], _, _ => treesItems_nil f
  | c :: cs, h, hi => by
    rw [treesItems_cons, treeItems_inert hfg c (h c (.head _)) (hi c (.head _)), List.nil_append]
    exact treesItems_inert hfg cs (fun d hd => h d (.tail _ hd)) fun d hd => hi d (.tail _ hd)
end

private theorem walkItems_importing (hfg : Mirrors f g) {n : Node} (h : n.role = .importing) :
    walkItems g (Stmt.ofNode n) = f n := by
  have hwalk : (Stmt.ofNode n).walk = [Stmt.ofNode n] := by
    rw [Stmt.ofNode_eq]
    rcases kind_of_role h with hk | hk | hk <;> simp [hk, Stmt.walk, Stmt.ofImportFrom]
  rw [walkItems, hwalk, List.flatMap_singleton, hfg.importing h]

private theorem walkItems_other (hfg : Mirrors f g) : walkItems g .other = [] := by
  simp [walkItems, Stmt.walk, hfg.other]

private theorem walkItems_assign (hfg : Mirrors f g) (line : Nat) (targets : List Target)
    (value : Expr) : walkItems g (.assign line targets value) = [] := by
  simp [walkItems, Stmt.walk, hfg.assign]

private theorem walkItems_expr (hfg : Mirrors f g) (value : Expr) :
    walkItems g (.expr value) = [] := by
  simp [walkItems, Stmt.walk, hfg.expr]

mutual
private theorem walkItems_ofAssignment (hfg : Mirrors f g) (line : Nat) :
    ∀ (n : Node) (targets : List Target), walkItems g (Stmt.ofAssignment line n targets) = []
  | .mk kind named field text row column children, targets => by
    unfold Stmt.ofAssignment
    dsimp only
    split
    · exact walkItems_other hfg
    · split
      · exact walkItems_other hfg
      · exact walkItems_next hfg line _ children

private theorem walkItems_next (hfg : Mirrors f g) (line : Nat) (targets : List Target) :
    ∀ cs : List Node, walkItems g (Stmt.ofAssignment.next line targets cs) = []
  | [] => walkItems_other hfg
  | c :: rest => by
    unfold Stmt.ofAssignment.next
    split
    · split
      · exact walkItems_ofAssignment hfg line c targets
      · exact walkItems_assign hfg line targets _
    · exact walkItems_next hfg line targets rest
end

private theorem walkItems_ofExpressionStatement (hfg : Mirrors f g) (n : Node) :
    walkItems g (Stmt.ofExpressionStatement n) = [] := by
  unfold Stmt.ofExpressionStatement
  split
  · split
    · exact walkItems_ofAssignment hfg _ _ _
    · exact walkItems_expr hfg _
  · exact walkItems_other hfg

private theorem walkItems_nested (hfg : Mirrors f g) (blocks : List (List Stmt)) :
    walkItems g (.nested blocks) = blockItems g blocks := by
  rw [← walkBlocks_items]
  simp [walkItems, Stmt.walk, hfg.nested]

private theorem walkItems_definition (hfg : Mirrors f g) (decorators : List Expr) {n : Node}
    {body : List Stmt} (h : n.role = .definition) :
    walkItems g (if n.kind = "function_definition" then
        .functionDef (Function.ofNode decorators n) body
      else if n.kind = "class_definition" then .classDef (Class.ofNode decorators n) body
      else .other) = f n ++ bodyItems g body := by
  rcases kind_of_role h with hk | hk
  · simp [hk, walkItems, bodyItems, Stmt.walk, hfg.functionDef decorators body hk]
  · simp [hk, walkItems, bodyItems, Stmt.walk, hfg.classDef decorators body hk]

private theorem walkItems_plain (hfg : Mirrors f g) {n : Node}
    (hr : n.role = .clause ∨ n.role = .other) (hk : Stmt.isCompoundKind n.kind = false) :
    walkItems g (Stmt.ofNode n) = [] := by
  have hne (k : String) (h : n.kind = k) :
      k ≠ "import_statement" ∧ k ≠ "import_from_statement" ∧ k ≠ "future_import_statement" ∧
      k ≠ "function_definition" ∧ k ≠ "class_definition" ∧ k ≠ "decorated_definition" := by
    refine ⟨?_,?_,?_,?_,?_,?_⟩ <;> rintro rfl <;> simp [Node.role, h] at hr
  obtain ⟨h1,h2,h3,h4,h5,h6⟩ := hne n.kind rfl
  rw [Stmt.ofNode_eq, if_neg h1, if_neg h2, if_neg h3, if_neg h4, if_neg h5, if_neg h6]
  split
  · exact walkItems_ofExpressionStatement hfg n
  · rw [if_neg (by simp [hk])]
    exact walkItems_other hfg

-- The cases follow the functions that lower a tree: each says of its own result what it says of the
-- nodes it was made from, and every step goes down to children.
mutual
private theorem walkItems_ofNode (hfg : Mirrors f g) : ∀ n : Node, Placed n → InBody n →
    walkItems g (Stmt.ofNode n) = treeItems f n
  | .mk kind named field text row column children, h, hb => by
    generalize hn : Node.mk kind named field text row column children = n at h hb
    have hc : n.children = children := by rw [← hn]; rfl
    have hkids : ∀ c ∈ children, Placed c := fun c hm => h.child (hc ▸ hm)
    have hadm : ∀ c ∈ children, n.admits c := fun c hm => h.admits (hc ▸ hm)
    have hcompound (hk : Stmt.isCompoundKind n.kind) :
        walkItems g (Stmt.ofNode n) = treesItems f children := by
      rw [ofNode_compound hk, walkItems_nested hfg, hc]
      exact blockItems_blocksOf hfg n (role_of_isCompoundKind hk) children hkids hadm
    rw [treeItems_eq, hc]
    cases hr : n.role with
    | root => exact absurd hr hb.root
    | block => exact absurd hr hb.block
    | importing =>
      rw [walkItems_importing hfg hr]
      rw [treesItems_inert hfg children hkids fun c hm => inert_in_import hr (hadm c hm)]
      simp
    | definition =>
      obtain ⟨h1,h2⟩ := h.body hr
      rw [hc] at h1 h2
      rw [← bodyItems_bodyOf hfg n hr children hkids hadm h1 h2, ← walkItems_definition hfg [] hr,
        Stmt.ofNode_eq, hc]
      rcases kind_of_role hr with hk | hk <;> simp [hk]
    | decorated =>
      have h1 := h.definition hr
      rw [hc] at h1
      have hk : n.kind = "decorated_definition" := kind_of_role hr
      rw [hfg.idle (by simp [hr]), List.nil_append, Stmt.ofNode_eq, hk]
      simpa [hc] using walkItems_ofDefinition hfg (Stmt.decoratorsOf n) n hr children hkids hadm h1
    | compound =>
      rw [hfg.idle (by simp [hr]), List.nil_append]
      exact hcompound (kind_of_role hr)
    | clause =>
      rw [hfg.idle (by simp [hr]), List.nil_append]
      by_cases hk : Stmt.isCompoundKind n.kind
      · exact hcompound hk
      · have hno : n.holdsBlock = false := by
          refine Bool.eq_false_iff.mpr fun hh => hk ?_
          rw [hb.clause hr hh]
          decide
        rw [walkItems_plain hfg (.inl hr) (by simpa using hk)]
        exact (treesItems_inert hfg children hkids fun c hm =>
          Inert.child (.inr ⟨hr,hno⟩) (hc ▸ hm) (hadm c hm)).symm
    | other =>
      have hk : ¬ Stmt.isCompoundKind n.kind := by
        intro hk
        rcases role_of_isCompoundKind hk with h | h <;> simp [hr] at h
      rw [hfg.idle (by simp [hr]), List.nil_append,
        walkItems_plain hfg (.inr hr) (by simpa using hk)]
      exact (treesItems_inert hfg children hkids fun c hm =>
        Inert.child (.inl hr) (hc ▸ hm) (hadm c hm)).symm

private theorem bodyItems_ofBlock (hfg : Mirrors f g) : ∀ n : Node, Placed n →
    (n.role = .root ∨ n.role = .block) → bodyItems g (Stmt.ofBlock n) = treeItems f n
  | .mk kind named field text row column children, h, hr => by
    rw [treeItems_eq, hfg.idle (by rcases hr with hr | hr <;> simp [hr]), List.nil_append]
    exact bodyItems_ofParts hfg _ hr children (fun c hc => h.child hc) fun c hc => h.admits hc

private theorem bodyItems_ofParts (hfg : Mirrors f g) (p : Node)
    (hp : p.role = .root ∨ p.role = .block) : ∀ cs : List Node, (∀ c ∈ cs, Placed c) →
      (∀ c ∈ cs, p.admits c) → bodyItems g (Stmt.ofParts cs) = treesItems f cs
  | [], _, _ => rfl
  | c :: cs, h, ha => by
    have ih := bodyItems_ofParts hfg p hp cs (fun d hd => h d (.tail _ hd))
      fun d hd => ha d (.tail _ hd)
    have hc := h c (.head _)
    rw [Stmt.ofParts, treesItems_cons]
    split
    · rw [bodyItems_cons, walkItems_ofNode hfg c hc (inBody_of_admits hp (ha c (.head _))), ih]
    · next hpart =>
      have hi := inert_of_not_isPart (ha c (.head _)) (by simpa using hpart)
      rw [treeItems_inert hfg c hc hi, List.nil_append, ih]

private theorem bodyItems_bodyOf (hfg : Mirrors f g) (p : Node) (hp : p.role = .definition) :
    ∀ cs : List Node, (∀ c ∈ cs, Placed c) → (∀ c ∈ cs, p.admits c) →
      (cs.filter (·.field = some "body")).length ≤ 1 →
      (∀ c ∈ cs, c.field = some "body" → c.role = .block) →
      bodyItems g (Stmt.bodyOf cs) = treesItems f cs
  | [], _, _, _, _ => rfl
  | c :: cs, h, ha, h1, hb => by
    have hc := h c (.head _)
    have hcs : ∀ d ∈ cs, Placed d := fun d hd => h d (.tail _ hd)
    have hacs : ∀ d ∈ cs, p.admits d := fun d hd => ha d (.tail _ hd)
    rw [Stmt.bodyOf, treesItems_cons]
    split
    · next hf =>
      have hrest := treesItems_inert hfg cs hcs fun d hd =>
        inert_in_definition hp (hacs d hd) (field_of_filter_le_one h1 hf d hd)
      rw [bodyItems_ofBlock hfg c hc (.inr (hb c (.head _) hf)), hrest, List.append_nil]
    · next hf =>
      rw [treeItems_inert hfg c hc (inert_in_definition hp (ha c (.head _)) hf), List.nil_append]
      exact bodyItems_bodyOf hfg p hp cs hcs hacs (filter_tail_le_one h1)
        fun d hd => hb d (.tail _ hd)

private theorem bodyItems_ofBody (hfg : Mirrors f g) : ∀ n : Node, Placed n → n.role = .definition →
    bodyItems g (Stmt.ofBody n) = treesItems f n.children
  | .mk kind named field text row column children, h, hr => by
    obtain ⟨h1,h2⟩ := h.body hr
    exact bodyItems_bodyOf hfg _ hr children (fun c hc => h.child hc) (fun c hc => h.admits hc)
      h1 h2

private theorem walkItems_ofDefinition (hfg : Mirrors f g) (decorators : List Expr) (p : Node)
    (hp : p.role = .decorated) : ∀ cs : List Node, (∀ c ∈ cs, Placed c) →
      (∀ c ∈ cs, p.admits c) → (cs.filter (·.field = some "definition")).length ≤ 1 →
      walkItems g (Stmt.ofDefinition decorators cs) = treesItems f cs
  | [], _, _, _ => walkItems_other hfg
  | c :: cs, h, ha, h1 => by
    have hc := h c (.head _)
    have hcs : ∀ d ∈ cs, Placed d := fun d hd => h d (.tail _ hd)
    have hacs : ∀ d ∈ cs, p.admits d := fun d hd => ha d (.tail _ hd)
    rw [Stmt.ofDefinition, treesItems_cons]
    split
    · next hf =>
      have hrest := treesItems_inert hfg cs hcs fun d hd =>
        inert_in_decorated hp (hacs d hd) (.inl (field_of_filter_le_one h1 hf d hd))
      rw [hrest, List.append_nil]
      by_cases hr : c.role = .definition
      · rw [walkItems_definition hfg decorators hr, bodyItems_ofBody hfg c hc hr, treeItems_eq]
      · have hk : c.kind ≠ "function_definition" ∧ c.kind ≠ "class_definition" := by
          refine ⟨fun hk => hr ?_,fun hk => hr ?_⟩ <;> simp [Node.role, hk]
        rw [treeItems_inert hfg c hc (inert_in_decorated hp (ha c (.head _)) (.inr hr)),
          if_neg hk.1, if_neg hk.2]
        exact walkItems_other hfg
    · next hf =>
      rw [treeItems_inert hfg c hc (inert_in_decorated hp (ha c (.head _)) (.inl hf)),
        List.nil_append]
      exact walkItems_ofDefinition hfg decorators p hp cs hcs hacs (filter_tail_le_one h1)

private theorem blockItems_blocksOf (hfg : Mirrors f g) (p : Node)
    (hp : p.role = .compound ∨ p.role = .clause) : ∀ cs : List Node, (∀ c ∈ cs, Placed c) →
      (∀ c ∈ cs, p.admits c) → blockItems g (Stmt.blocksOf cs) = treesItems f cs
  | [], _, _ => rfl
  | c :: cs, h, ha => by
    have ih := blockItems_blocksOf hfg p hp cs (fun d hd => h d (.tail _ hd))
      fun d hd => ha d (.tail _ hd)
    have hc := h c (.head _)
    rw [Stmt.blocksOf, treesItems_cons]
    split
    · split
      · next hk =>
        have hr : c.role = .block := by simp [Node.role, hk]
        rw [blockItems, List.flatMap_cons, bodyItems_ofBlock hfg c hc (.inr hr)]
        exact congrArg _ ih
      · next hk =>
        split
        · next hcl =>
          rw [blockItems, List.flatMap_append]
          have hclause := blockItems_clauseBlocks hfg c hc (role_of_isClauseKind hcl)
          exact congr (congrArg _ hclause) ih
        · next hcl =>
          have hi : Inert c := inert_in_compound hp (ha c (.head _))
            (fun hr => hk (kind_of_role hr)) fun hr => hcl (kind_of_role hr)
          rw [treeItems_inert hfg c hc hi, List.nil_append, ih]
    · next hpart =>
      have hi := inert_of_not_isPart (ha c (.head _)) (by simpa using hpart)
      rw [treeItems_inert hfg c hc hi, List.nil_append, ih]

private theorem blockItems_clauseBlocks (hfg : Mirrors f g) : ∀ n : Node, Placed n →
    n.role = .clause → blockItems g (Stmt.clauseBlocks n) = treeItems f n
  | .mk kind named field text row column children, h, hr => by
    rw [treeItems_eq, hfg.idle (by simp [hr]), List.nil_append]
    exact blockItems_blocksOf hfg _ (.inr hr) children (fun c hc => h.child hc)
      fun c hc => h.admits hc
end

/-- The statements of a module, walked through all their blocks, say what its nodes say in document
order. -/
theorem Mirrors.flatMap_walkAll (hfg : Mirrors f g) {root : Node} (h : root.isModule) :
    (Stmt.walkAll (Stmt.ofBlock root)).flatMap g = root.preorder.flatMap f :=
  bodyItems_ofBlock hfg root (placed_of_isModule h) (.inl (role_of_isModule h))

end Items

end DocSnapshot.Python
