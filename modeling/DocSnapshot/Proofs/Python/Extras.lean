import DocSnapshot.Proofs.Python.Depth
import DocSnapshot.Python.Lowering

/-! Trees with extras added. Comments and continued lines stand between the tokens of a source, and
a reader of a tree has to look past them. A comment is never a part of its parent; a continued line
is one, so it goes unnoticed only where parts are not counted. -/
namespace DocSnapshot.Python

mutual
private theorem holds_of_children {P : Node → Prop}
    (h : ∀ n : Node, (∀ c ∈ n.children, P c) → P n) : (n : Node) → P n
  | .mk _ _ _ _ _ _ children => h _ (holds_of_childrenAll h children)

private theorem holds_of_childrenAll {P : Node → Prop}
    (h : ∀ n : Node, (∀ c ∈ n.children, P c) → P n) : (cs : List Node) → ∀ c ∈ cs, P c
  | [] => by simp
  | n :: rest => List.forall_mem_cons.mpr ⟨holds_of_children h n,holds_of_childrenAll h rest⟩
end

/-- What holds of a node as soon as it holds of its children holds of every node. -/
theorem Node.induction {P : Node → Prop} (n : Node)
    (node : ∀ n : Node, (∀ c ∈ n.children, P c) → P n) : P n := holds_of_children node n

def StringLiteral.plain? (text : String) : Option StringLiteral :=
  (parse? text).filter (!·.formatted)

namespace Node

/-- Whether a node is a comment or a continued line. -/
def isExtra (n : Node) : Bool :=
  (n.kind = "comment" || n.kind = "line_continuation") && n.field.isNone && n.children.isEmpty

/-- Where among the children of a node continued lines may be added: anywhere, only behind the
first part, or nowhere. -/
inductive Gap where
  | everywhere
  | behind
  | nowhere
  deriving DecidableEq

def Gap.after (gap : Gap) (c : Node) : Gap :=
  if gap = .behind ∧ c.isPart then .everywhere else gap

def Gap.admits (gap : Gap) (e : Node) : Bool :=
  e.isExtra && (e.kind = "comment" || gap = .everywhere)

def listedKinds : List String :=
  ["list", "tuple", "expression_list", "pattern_list", "tuple_pattern", "list_pattern",
    "parenthesized_expression", "type", "member_type", "concatenated_string",
    "expression_statement"]

def leadKinds : List String := ["decorator", "typed_parameter"]

/-- The other kinds of nodes that are looked into, by the roles and kinds of their children. -/
def roleKinds : List String :=
  ["attribute", "default_parameter", "typed_default_parameter", "import_statement",
    "import_from_statement", "future_import_statement", "aliased_import", "function_definition",
    "class_definition", "decorated_definition", "assignment"]

def holdsStatements (kind : String) (field : Option String) : Bool :=
  kind = "module" || kind = "block" || field = some "body"

def isListed (kind : String) (field : Option String) : Bool :=
  listedKinds.contains kind || field = some "superclasses"

def isRead (kind : String) (field : Option String) : Bool :=
  isListed kind field || holdsStatements kind field || leadKinds.contains kind ||
    roleKinds.contains kind || field = some "parameters" || Stmt.isCompoundKind kind ||
    Stmt.isClauseKind kind

/-- Where continued lines may be added among the children of a node. A statement too many goes
unnoticed behind the first one, but only to the `lax`. -/
def gapOf (lax : Bool) (kind : String) (field : Option String) : Gap :=
  if isListed kind field then .nowhere
  else if holdsStatements kind field then if lax then .behind else .nowhere
  else if leadKinds.contains kind then .behind
  else .everywhere

def splatKinds : List String := ["list_splat_pattern", "dictionary_splat_pattern"]

def isCopied (n : Node) : Bool :=
  ["identifier", "integer", "float"].contains n.kind ||
    [some "name", some "alias", some "attribute", some "module_name"].contains n.field ||
    splatKinds.contains n.kind && n.parts.isEmpty

/-- The part that the name of a parameter is copied from: the first one, unless that has a name of
its own. -/
def namePart? (n : Node) : Option Node :=
  if splatKinds.contains n.kind then n.parts.head?
  else if n.kind = "typed_parameter" then n.parts.head?.filter (!splatKinds.contains ·.kind)
  else none

/-- Whether a node keeps the text of another one as far as it is copied, and in what it means as a
string. -/
structure KeepsText (parent : String) (n m : Node) : Prop where
  copied : isCopied n = true → m.text = n.text
  name : m.namePart?.map text = n.namePart?.map text
  literal : n.kind = "string" ∨ parent = "concatenated_string" →
    StringLiteral.plain? m.text = StringLiteral.plain? n.text

mutual
/-- Whether a tree is another one with extras added. Where a tree is not looked into they may stand
anywhere, and texts may change: it is `free`. -/
def Extends (lax : Bool) : Bool → String → Node → Node → Prop
  | free, parent, .mk kind named field text row column children, m =>
    m.kind = kind ∧ m.named = named ∧ m.field = field ∧
    (free = false → KeepsText parent (.mk kind named field text row column children) m) ∧
    (children = [] → m.children = []) ∧
    if free = false ∧ isRead kind field = true then
      ExtendsAll lax false kind (gapOf lax kind field) children m.children
    else ExtendsAll lax true kind .everywhere children m.children

def ExtendsAll (lax : Bool) : Bool → String → Gap → List Node → List Node → Prop
  | _, _, gap, [], ds => ∀ e ∈ ds, gap.admits e = true
  | free, parent, gap, c :: cs, ds => ∃ before d after, ds = before ++ d :: after ∧
    (∀ e ∈ before, gap.admits e = true) ∧ Extends lax free parent c d ∧
    ExtendsAll lax free parent (gap.after c) cs after
end

variable {lax free : Bool} {parent : String} {gap : Gap} {n m : Node} {cs ds : List Node}

theorem Gap.after_eq_nowhere_iff (gap : Gap) (c : Node) :
    gap.after c = .nowhere ↔ gap = .nowhere := by
  rw [Gap.after]
  split
  · next h => simp [h.1]
  · rfl

theorem Gap.admits_iff (gap : Gap) (e : Node) : gap.admits e = true ↔
    e.isExtra = true ∧ (e.kind = "comment" ∨ gap = .everywhere) := by
  simp [Gap.admits]

section Extends

theorem Extends.kind (h : Extends lax free parent n m) : m.kind = n.kind := by
  cases n
  rw [Extends] at h
  exact h.1

theorem Extends.named (h : Extends lax free parent n m) : m.named = n.named := by
  cases n
  rw [Extends] at h
  exact h.2.1

theorem Extends.field (h : Extends lax free parent n m) : m.field = n.field := by
  cases n
  rw [Extends] at h
  exact h.2.2.1

theorem Extends.text (h : Extends lax false parent n m) : KeepsText parent n m := by
  cases n
  rw [Extends] at h
  exact h.2.2.2.1 rfl

theorem Extends.leaf (h : Extends lax free parent n m) (hleaf : n.children = []) :
    m.children = [] := by
  cases n
  rw [Extends] at h
  exact h.2.2.2.2.1 hleaf

/-- The children of a node that is looked into. -/
theorem Extends.children (h : Extends lax false parent n m)
    (hread : isRead n.kind n.field = true) :
    ExtendsAll lax false n.kind (gapOf lax n.kind n.field) n.children m.children := by
  cases n
  rw [Extends] at h
  have hchildren := h.2.2.2.2.2
  rwa [if_pos ⟨rfl,hread⟩] at hchildren

/-- The children of any node. -/
theorem Extends.exists_children (h : Extends lax free parent n m) :
    ∃ free' gap, ExtendsAll lax free' n.kind gap n.children m.children := by
  cases n
  rw [Extends] at h
  have hchildren := h.2.2.2.2.2
  split at hchildren
  · exact ⟨_,_,hchildren⟩
  · exact ⟨_,_,hchildren⟩

end Extends

section ExtendsAll

private theorem heightAll_append (xs ys : List Node) :
    heightAll (xs ++ ys) = max (heightAll xs) (heightAll ys) := by
  induction xs with
  | nil => simp [heightAll]
  | cons x xs ih => rw [List.cons_append, heightAll, heightAll, ih, Nat.max_assoc]

private theorem ExtendsAll.heightAll (h : ExtendsAll lax free parent gap cs ds)
    (hheight : ∀ c ∈ cs, ∀ d, Extends lax free parent c d → d.height = c.height) :
    max 1 (heightAll ds) = max 1 (heightAll cs) := by
  have hextras : ∀ {gap : Gap} {es : List Node}, (∀ e ∈ es, gap.admits e = true) →
      Node.heightAll es ≤ 1 := by
    intro gap es hes
    have hlevel := (@add_heightAll_le_iff 1 0 (Nat.zero_le 1) es).mpr fun e he => by
      have hextra := ((gap.admits_iff e).mp (hes e he)).1
      simp only [isExtra, Bool.and_eq_true, List.isEmpty_iff] at hextra
      have hleaf : e.height = 0 := by rw [height_eq, hextra.2, Node.heightAll]
      omega
    rwa [Nat.zero_add] at hlevel
  induction cs generalizing gap ds with
  | nil =>
    rw [ExtendsAll] at h
    have hds := hextras h
    rw [Node.heightAll]
    omega
  | cons c cs ih =>
    rw [ExtendsAll] at h
    obtain ⟨before,d,after,rfl,hbefore,hhead,htail⟩ := h
    have hbefore := hextras hbefore
    have hd := hheight c List.mem_cons_self d hhead
    have hrest := ih htail fun c' hc' => hheight c' (List.mem_cons_of_mem _ hc')
    rw [heightAll_append, Node.heightAll, Node.heightAll, hd]
    omega

end ExtendsAll

theorem height_of_extends (h : Extends lax free parent n m) : m.height = n.height := by
  induction n using Node.induction generalizing free parent m with
  | node n ih =>
    obtain ⟨free',gap,hchildren⟩ := h.exists_children
    have hmax := hchildren.heightAll fun c hc d hd => ih c hc hd
    rw [height_eq m, height_eq n]
    -- An extra is a level of its own, so it must not be the only child.
    cases hcs : n.children with
    | nil => rw [h.leaf hcs]
    | cons c cs =>
      rw [hcs] at hmax hchildren
      have hds : 1 ≤ Node.heightAll m.children := by
        rw [ExtendsAll] at hchildren
        obtain ⟨before,d,after,hds,-⟩ := hchildren
        rw [hds, heightAll_append, Node.heightAll]
        omega
      rw [Node.heightAll] at hmax ⊢
      omega

section Additions

theorem extendsAll_nil : ExtendsAll lax free parent gap [] [] := by
  rw [ExtendsAll]
  simp

theorem extendsAll_cons {c d : Node} (hcd : Extends lax free parent c d)
    (h : ExtendsAll lax free parent (gap.after c) cs ds) :
    ExtendsAll lax free parent gap (c :: cs) (d :: ds) := by
  rw [ExtendsAll]
  exact ⟨[],d,ds,rfl,by simp,hcd,h⟩

/-- One more extra may come in front. -/
theorem extendsAll_extra {e : Node} (he : gap.admits e = true)
    (h : ExtendsAll lax free parent gap cs ds) : ExtendsAll lax free parent gap cs (e :: ds) := by
  cases cs with
  | nil =>
    rw [ExtendsAll] at h ⊢
    exact List.forall_mem_cons.mpr ⟨he,h⟩
  | cons c cs =>
    rw [ExtendsAll] at h ⊢
    obtain ⟨before,d,after,rfl,hbefore,hrest⟩ := h
    exact ⟨e :: before,d,after,rfl,List.forall_mem_cons.mpr ⟨he,hbefore⟩,hrest⟩

theorem extendsAll_refl (h : ∀ c ∈ cs, Extends lax free parent c c) :
    ExtendsAll lax free parent gap cs cs := by
  induction cs generalizing gap with
  | nil => exact extendsAll_nil
  | cons c cs ih =>
    rw [List.forall_mem_cons] at h
    exact extendsAll_cons h.1 (ih h.2)

/-- A tree is itself with nothing added. -/
theorem extends_refl (n : Node) : Extends lax free parent n n := by
  induction n using Node.induction generalizing free parent with
  | node n ih =>
    cases n
    rw [Extends]
    refine ⟨rfl,rfl,rfl,fun _ => ⟨fun _ => rfl,rfl,fun _ => rfl⟩,id,?_⟩
    split
    · exact extendsAll_refl fun c hc => ih c hc
    · exact extendsAll_refl fun c hc => ih c hc

end Additions

end Node

end DocSnapshot.Python
