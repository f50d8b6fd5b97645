import Mathlib.Data.List.Forall2
import DocSnapshot.Proofs.Python.Extras

/-! Trees that read alike. Extras aside they have the same shape as far as they are looked into, and
the same words: the texts that are copied and the values of strings. Whichever way children are
taken, by role, by kind, one by one or the first of them, those of two such trees read alike
again. -/
namespace DocSnapshot.Python

namespace Node

def importKinds : List String :=
  ["import_statement", "import_from_statement", "future_import_statement"]

/-- The other roles in which the text of a node is copied, each by the kind of the parent. -/
def copiedRoles : List (String × String) :=
  [("function_definition", "name"), ("class_definition", "name"), ("default_parameter", "name"),
    ("typed_default_parameter", "name"), ("aliased_import", "name"), ("aliased_import", "alias"),
    ("attribute", "attribute"), ("import_from_statement", "module_name")]

/-- Whether the children of a node are parameters, or one of them is the name of a parameter. -/
def holdsParameters (parent : Node) : Bool :=
  parent.field = some "parameters" || parent.kind = "typed_parameter"

def isWord (parent n : Node) : Bool :=
  ["identifier", "integer", "float"].contains n.kind ||
    copiedRoles.any (fun role => parent.kind = role.1 && n.field = some role.2) ||
    (importKinds.contains parent.kind && n.field = some "name" && n.kind ≠ "aliased_import") ||
    (parent.holdsParameters && splatKinds.contains n.kind && n.parts.isEmpty)

/-- Whether a child keeps the words of another one: what is copied of it, or of its part that names
a parameter, and what it means as a string. -/
structure KeepsWords (parent n m : Node) : Prop where
  copied : isWord parent n = true → m.text = n.text
  name : parent.holdsParameters = true → m.namePart?.map text = n.namePart?.map text
  literal : n.kind = "string" ∨ parent.kind = "concatenated_string" ∧ n.isPart = true →
    StringLiteral.plain? m.text = StringLiteral.plain? n.text

mutual
def ReadsLike (lax : Bool) : Node → Node → Node → Prop
  | parent, .mk kind named field text row column children, m =>
    m.kind = kind ∧ m.named = named ∧ m.field = field ∧
    KeepsWords parent (.mk kind named field text row column children) m ∧
    (isRead kind field = true → ReadsLikeAll lax (.mk kind named field text row column children)
      (gapOf lax kind field) children m.children)

def ReadsLikeAll (lax : Bool) : Node → Gap → List Node → List Node → Prop
  | _, gap, [], ds => ∀ e ∈ ds, gap.admits e = true
  | parent, gap, c :: cs, ds => ∃ before d after, ds = before ++ d :: after ∧
    (∀ e ∈ before, gap.admits e = true) ∧ ReadsLike lax parent c d ∧
    ReadsLikeAll lax parent (gap.after c) cs after
end

variable {lax : Bool} {parent n m : Node} {gap : Gap} {cs ds : List Node}

theorem readsLike_iff : ReadsLike lax parent n m ↔ m.kind = n.kind ∧ m.named = n.named ∧
    m.field = n.field ∧ KeepsWords parent n m ∧ (isRead n.kind n.field = true →
      ReadsLikeAll lax n (gapOf lax n.kind n.field) n.children m.children) := by
  cases n
  rw [ReadsLike]
  rfl

section ReadsLike

variable (h : ReadsLike lax parent n m)

include h

theorem ReadsLike.kind : m.kind = n.kind := (readsLike_iff.mp h).1

theorem ReadsLike.named : m.named = n.named := (readsLike_iff.mp h).2.1

theorem ReadsLike.field : m.field = n.field := (readsLike_iff.mp h).2.2.1

theorem ReadsLike.words : KeepsWords parent n m := (readsLike_iff.mp h).2.2.2.1

/-- The children of a node that is looked into. -/
theorem ReadsLike.children (hread : isRead n.kind n.field = true) :
    ReadsLikeAll lax n (gapOf lax n.kind n.field) n.children m.children :=
  (readsLike_iff.mp h).2.2.2.2 hread

theorem ReadsLike.isPart : m.isPart = n.isPart := by rw [Node.isPart, Node.isPart, h.kind, h.named]

end ReadsLike

section Words

theorem isWord_of_kind (h : ["identifier", "integer", "float"].contains n.kind = true) :
    isWord parent n = true := by
  simp only [isWord, h, Bool.true_or]

theorem isWord_of_role {f : String} (hrole : (parent.kind, f) ∈ copiedRoles)
    (hfield : n.field = some f) : isWord parent n = true := by
  have hany : copiedRoles.any (fun role => parent.kind = role.1 && n.field = some role.2) = true :=
    List.any_eq_true.mpr ⟨_,hrole,by simp [hfield]⟩
  simp only [isWord, hany, Bool.or_true, Bool.true_or]

theorem isWord_of_import (himport : importKinds.contains parent.kind = true)
    (hname : n.field = some "name") (hkind : n.kind ≠ "aliased_import") :
    isWord parent n = true := by
  simp only [isWord, himport, hname, decide_true, hkind, ne_eq, not_false_eq_true, Bool.and_self,
    Bool.or_true, Bool.true_or]

theorem isWord_of_splat (hholds : parent.holdsParameters = true)
    (hkind : splatKinds.contains n.kind = true) (hparts : n.parts = []) :
    isWord parent n = true := by
  simp only [isWord, hholds, hkind, hparts, List.isEmpty_nil, Bool.and_true, Bool.or_true]

private theorem isCopied_of_isWord (h : isWord parent n = true) : isCopied n = true := by
  simp only [isWord, Bool.or_eq_true, Bool.and_eq_true, List.any_eq_true, decide_eq_true_eq] at h
  rcases h with ((hkind | ⟨role,hrole,-,hfield⟩) | ⟨⟨-,hfield⟩,-⟩) | ⟨⟨-,hkind⟩,hparts⟩
  · simp only [isCopied, hkind, Bool.true_or]
  · have hroles : ∀ role ∈ copiedRoles, [some "name", some "alias", some "attribute",
        some "module_name"].contains (some role.2) = true := by decide
    simp only [isCopied, hfield, hroles role hrole, Bool.or_true, Bool.true_or]
  · simp [isCopied, hfield]
  · simp only [isCopied, hkind, hparts, Bool.and_self, Bool.or_true]

/-- A node that keeps all texts keeps the words. -/
theorem KeepsText.keepsWords {kind : String} (h : KeepsText kind n m)
    (hparent : parent.kind = kind) : KeepsWords parent n m where
  copied hword := h.copied (isCopied_of_isWord hword)
  name _ := h.name
  literal hliteral := h.literal (hliteral.imp id fun hpart => hparent ▸ hpart.1)

end Words

private theorem readsLikeAll_of_extendsAll {kind : String}
    (h : ExtendsAll lax false kind gap cs ds)
    (hchild : ∀ c ∈ cs, ∀ d, Extends lax false kind c d → ReadsLike lax parent c d) :
    ReadsLikeAll lax parent gap cs ds := by
  induction cs generalizing gap ds with
  | nil =>
    rw [ExtendsAll] at h
    rwa [ReadsLikeAll]
  | cons c cs ih =>
    rw [ExtendsAll] at h
    obtain ⟨before,d,after,rfl,hbefore,hhead,htail⟩ := h
    rw [List.forall_mem_cons] at hchild
    rw [ReadsLikeAll]
    exact ⟨before,d,after,rfl,hbefore,hchild.1 d hhead,ih htail hchild.2⟩

/-- A tree with extras added reads like the tree without. -/
theorem Extends.readsLike {kind : String} (h : Extends lax false kind n m)
    (hparent : parent.kind = kind) : ReadsLike lax parent n m := by
  induction n using Node.induction generalizing kind parent m with
  | node n ih =>
    refine readsLike_iff.mpr ⟨h.kind,h.named,h.field,h.text.keepsWords hparent,fun hread => ?_⟩
    exact readsLikeAll_of_extendsAll (h.children hread) fun c hc d hcd => ih c hc hcd rfl

section ReadsLikeAll

theorem readsLikeAll_nil : ReadsLikeAll lax parent gap [] [] := by
  rw [ReadsLikeAll]
  simp

theorem readsLikeAll_cons {c d : Node} (hcd : ReadsLike lax parent c d)
    (h : ReadsLikeAll lax parent (gap.after c) cs ds) :
    ReadsLikeAll lax parent gap (c :: cs) (d :: ds) := by
  rw [ReadsLikeAll]
  exact ⟨[],d,ds,rfl,by simp,hcd,h⟩

/-- An extra in front is read over. -/
theorem readsLikeAll_extra {e : Node} (he : gap.admits e = true)
    (h : ReadsLikeAll lax parent gap cs ds) : ReadsLikeAll lax parent gap cs (e :: ds) := by
  cases cs with
  | nil =>
    rw [ReadsLikeAll] at h ⊢
    exact List.forall_mem_cons.mpr ⟨he,h⟩
  | cons c cs =>
    rw [ReadsLikeAll] at h ⊢
    obtain ⟨before,d,after,rfl,hbefore,hrest⟩ := h
    exact ⟨e :: before,d,after,rfl,List.forall_mem_cons.mpr ⟨he,hbefore⟩,hrest⟩

/-- A choice of children by kind, name and role that leaves the extras out chooses children that
read alike. -/
theorem ReadsLikeAll.filter {q : Node → Bool}
    (hq : ∀ c d : Node, d.kind = c.kind → d.named = c.named → d.field = c.field → q d = q c)
    (hextra : ∀ e : Node, e.isExtra = true → (gap = .nowhere → e.kind = "comment") → q e = false)
    (h : ReadsLikeAll lax parent gap cs ds) :
    List.Forall₂ (ReadsLike lax parent) (cs.filter q) (ds.filter q) := by
  have hnone : ∀ {gap : Gap} {es : List Node},
      (∀ e : Node, e.isExtra = true → (gap = .nowhere → e.kind = "comment") → q e = false) →
      (∀ e ∈ es, gap.admits e = true) → es.filter q = [] := by
    intro gap es hextra hes
    refine List.filter_eq_nil_iff.mpr fun e he => ?_
    obtain ⟨hisExtra,hkind⟩ := (gap.admits_iff e).mp (hes e he)
    rw [hextra e hisExtra fun hgap => hkind.resolve_right (by simp [hgap])]
    exact Bool.false_ne_true
  -- The gap changes from child to child, but never to or from `nowhere`, which keeps `hextra`.
  induction cs generalizing gap ds with
  | nil =>
    rw [ReadsLikeAll] at h
    rw [hnone hextra h]
    exact .nil
  | cons c cs ih =>
    rw [ReadsLikeAll] at h
    obtain ⟨before,d,after,rfl,hbefore,hhead,htail⟩ := h
    rw [List.filter_append, hnone hextra hbefore, List.nil_append]
    have hrest := ih (fun e he hkind => hextra e he fun hgap => hkind
      ((gap.after_eq_nowhere_iff c).mpr hgap)) htail
    have hsame := hq c d hhead.kind hhead.named hhead.field
    cases hc : q c with
    | true =>
      rw [List.filter_cons_of_pos hc, List.filter_cons_of_pos (hsame.trans hc)]
      exact .cons hhead hrest
    | false =>
      rw [List.filter_cons_of_neg (by simp [hc]), List.filter_cons_of_neg (by simp [hsame, hc])]
      exact hrest

/-- Where continued lines are added only behind the first part, that part is the first one still. -/
theorem ReadsLikeAll.head?_parts (hgap : gap ≠ .everywhere)
    (h : ReadsLikeAll lax parent gap cs ds) :
    Option.Rel (ReadsLike lax parent) (cs.filter isPart).head? (ds.filter isPart).head? := by
  have hnone : ∀ {es : List Node}, (∀ e ∈ es, gap.admits e = true) → es.filter isPart = [] := by
    intro es hes
    refine List.filter_eq_nil_iff.mpr fun e he => ?_
    have hkind := ((gap.admits_iff e).mp (hes e he)).2.resolve_right hgap
    simp [Node.isPart, hkind]
  induction cs generalizing ds with
  | nil =>
    rw [ReadsLikeAll] at h
    rw [hnone h]
    exact .none
  | cons c cs ih =>
    rw [ReadsLikeAll] at h
    obtain ⟨before,d,after,rfl,hbefore,hhead,htail⟩ := h
    rw [List.filter_append, hnone hbefore, List.nil_append]
    cases hc : c.isPart with
    | true =>
      rw [List.filter_cons_of_pos hc, List.filter_cons_of_pos (hhead.isPart.trans hc)]
      exact .some hhead
    | false =>
      rw [List.filter_cons_of_neg (by simp [hc]),
        List.filter_cons_of_neg (by simp [hhead.isPart, hc])]
      have hafter : gap.after c = gap := by simp [Gap.after, hc]
      exact ih (hafter ▸ htail)

end ReadsLikeAll

section Readers

theorem head?_rel {R : Node → Node → Prop} (h : List.Forall₂ R cs ds) :
    Option.Rel R cs.head? ds.head? := by
  cases h with
  | nil => exact .none
  | cons hhead _ => exact .some hhead

/-- Children are found by their role. -/
theorem ReadsLike.childrenIn (h : ReadsLike lax parent n m)
    (hread : isRead n.kind n.field = true) (f : String) :
    List.Forall₂ (ReadsLike lax n) (n.childrenIn f) (m.childrenIn f) := by
  refine (h.children hread).filter (fun c d _ _ hfield => by rw [hfield]) fun e he _ => ?_
  simp only [isExtra, Bool.and_eq_true, Option.isNone_iff_eq_none] at he
  simp [he.1.2]

theorem ReadsLike.child? (h : ReadsLike lax parent n m) (hread : isRead n.kind n.field = true)
    (f : String) : Option.Rel (ReadsLike lax n) (n.child? f) (m.child? f) := by
  rw [Node.child?, Node.child?, ← List.head?_filter, ← List.head?_filter]
  exact head?_rel (h.childrenIn hread f)

/-- Parts are found by their kind, where that is not the kind of an extra. -/
theorem ReadsLike.partsOfKind (h : ReadsLike lax parent n m)
    (hread : isRead n.kind n.field = true) {p : String → Bool}
    (hp : p "line_continuation" = false) :
    List.Forall₂ (ReadsLike lax n) (n.parts.filter (p ·.kind)) (m.parts.filter (p ·.kind)) := by
  rw [parts, parts, List.filter_filter, List.filter_filter]
  refine (h.children hread).filter (fun c d hkind hnamed _ => ?_) fun e he _ => ?_
  · rw [Node.isPart, Node.isPart, hkind, hnamed]
  · simp only [isExtra, Bool.and_eq_true, Bool.or_eq_true, decide_eq_true_eq] at he
    rcases he.1.1 with hkind | hkind <;> simp [Node.isPart, hkind, hp]

/-- Parts are taken one by one where no continued line is added. -/
theorem ReadsLike.parts (h : ReadsLike lax parent n m)
    (hlisted : isListed n.kind n.field = true) :
    List.Forall₂ (ReadsLike lax n) n.parts m.parts := by
  have hread : isRead n.kind n.field = true := by simp [isRead, hlisted]
  refine (h.children hread).filter (fun c d hkind hnamed _ => ?_) fun e he hgap => ?_
  · rw [Node.isPart, Node.isPart, hkind, hnamed]
  · rw [Node.isPart, hgap (by simp [gapOf, hlisted])]
    simp

/-- The first part is taken where continued lines come behind it. -/
theorem ReadsLike.lead (h : ReadsLike lax parent n m)
    (hlead : leadKinds.contains n.kind = true) :
    Option.Rel (ReadsLike lax n) n.parts.head? m.parts.head? := by
  have hread : isRead n.kind n.field = true := by
    simp only [isRead, hlead, Bool.or_true, Bool.true_or]
  refine (h.children hread).head?_parts ?_
  rw [gapOf]
  split
  · simp
  · split
    · cases lax <;> simp
    · simp

end Readers

end Node

end DocSnapshot.Python
