import DocSnapshot.Proofs.Python.Bare
import DocSnapshot.Proofs.Python.Readers

/-! Extras go unnoticed in expressions, in the targets of assignments and in the heads of
definitions, but for lines and dumps. -/
namespace DocSnapshot.Python
open DocSnapshot.Python.Node (ReadsLike isRead isListed leadKinds)

variable {lax : Bool} {parent n m : Node}

/-- Lists that agree one by one are mapped to the same. -/
theorem map_eq_of_forall₂ {α β γ : Type} {R : α → β → Prop} {f : α → γ} {g : β → γ}
    {xs : List α} {ys : List β} (h : List.Forall₂ R xs ys)
    (hfg : ∀ x ∈ xs, ∀ y, R x y → g y = f x) : ys.map g = xs.map f := by
  induction h with
  | nil => rfl
  | cons hhead _ ih =>
    rw [List.forall_mem_cons] at hfg
    rw [List.map_cons, List.map_cons, hfg.1 _ hhead, ih hfg.2]

theorem optionMap_eq_of_rel {α β γ : Type} {R : α → β → Prop} {f : α → γ} {g : β → γ}
    {x : Option α} {y : Option β} (h : Option.Rel R x y)
    (hfg : ∀ a, x = some a → ∀ b, R a b → g b = f a) : y.map g = x.map f := by
  cases h with
  | none => rfl
  | some hrel => rw [Option.map_some, Option.map_some, hfg _ rfl _ hrel]

/-- Choices by the same test agree in a respect in which both branches do. -/
theorem apply_ite_eq {α β : Type} (f : α → β) {p : Prop} [Decidable p] {a b a' b' : α}
    (ha : p → f a' = f a) (hb : ¬p → f b' = f b) :
    f (if p then a' else b') = f (if p then a else b) := by
  by_cases hp : p
  · rw [if_pos hp, if_pos hp, ha hp]
  · rw [if_neg hp, if_neg hp, hb hp]

namespace Node

theorem mem_children_of_child? {f : String} {c : Node} (h : n.child? f = some c) :
    c ∈ n.children ∧ c.field = some f :=
  ⟨List.mem_of_find?_eq_some h,by simpa using List.find?_some h⟩

theorem mem_children_of_mem_parts {c : Node} (h : c ∈ n.parts) : c ∈ n.children :=
  (List.mem_filter.mp h).1

/-- The texts of children in certain roles are copied. -/
theorem ReadsLike.child?_text (h : ReadsLike lax parent n m)
    (hread : isRead n.kind n.field = true) (f : String)
    (hrole : (n.kind, f) ∈ copiedRoles) :
    (m.child? f).map Node.text = (n.child? f).map Node.text :=
  optionMap_eq_of_rel (h.child? hread f) fun _ hc _ hd =>
    hd.words.copied (isWord_of_role hrole (mem_children_of_child? hc).2)

end Node

namespace Expr

theorem ofNodes_eq (cs : List Node) : ofNodes cs = cs.map fun c => (c, ofNode c) := by
  induction cs with
  | nil => rfl
  | cons c rest ih => rw [ofNodes, ih, List.map_cons]

theorem filter_ofNodes (n : Node) :
    (ofNodes n.children).filter (·.1.isPart) = n.parts.map fun c => (c, ofNode c) := by
  rw [ofNodes_eq, List.filter_map]
  rfl

theorem readParts_ofNodes (n : Node) : readParts (ofNodes n.children) = n.parts.map ofNode := by
  rw [readParts, filter_ofNodes, List.map_map]
  rfl

theorem find?_ofNodes (n : Node) (f : String) :
    (ofNodes n.children).find? (·.1.field = some f) =
      (n.child? f).map fun c => (c, ofNode c) := by
  rw [ofNodes_eq, List.find?_map]
  rfl

/-- What a string means depends on its text as a literal that is not a format string. -/
theorem ofString_bare (n : Node) : (ofString n).bare =
    match StringLiteral.plain? n.text with
    | some s => .constant (if s.bytes then .bytes s.value else .str s.value)
    | none => .other "" := by
  rw [ofString, StringLiteral.plain?]
  cases StringLiteral.parse? n.text with
  | none => rfl
  | some s =>
    cases hformatted : s.formatted with
    | true => simp [Option.filter, hformatted, bare]
    | false => cases hbytes : s.bytes <;> simp [Option.filter, hformatted, hbytes, bare]

private theorem mapM_filter {α β : Type} (f : α → Option β) (p : β → Bool) (xs : List α) :
    (xs.mapM fun x => (f x).filter p) = (xs.mapM f).filter (·.all p) := by
  induction xs with
  | nil => rfl
  | cons x xs ih =>
    rw [List.mapM_cons, List.mapM_cons, ih]
    cases f x with
    | none => rfl
    | some b =>
      cases hb : p b <;> cases xs.mapM f <;> simp [Option.filter, hb]
      split <;> rfl

/-- What adjacent strings mean depends on their texts as literals that are not format strings. -/
theorem ofStrings_bare (n : Node) : (ofStrings n).bare =
    match (n.parts.map (StringLiteral.plain? ·.text)).mapM id with
    | some (s :: rest) =>
      if (s :: rest).all (·.bytes = s.bytes) then
        .constant (if s.bytes then .bytes (String.join ((s :: rest).map (·.value)))
          else .str (String.join ((s :: rest).map (·.value))))
      else .other ""
    | _ => .other "" := by
  have hplain : (n.parts.map (StringLiteral.plain? ·.text)).mapM id =
      (n.parts.mapM fun p => StringLiteral.parse? p.text).filter (·.all (!·.formatted)) := by
    rw [List.mapM_map]
    exact mapM_filter _ _ _
  rw [ofStrings, hplain]
  cases n.parts.mapM fun p => StringLiteral.parse? p.text with
  | none => rfl
  | some ss =>
    cases ss with
    | nil => rfl
    | cons s rest =>
      have hall : ((s :: rest).all fun p => !p.formatted && p.bytes = s.bytes) =
          ((s :: rest).all (!·.formatted) && (s :: rest).all (·.bytes = s.bytes)) := by
        rw [Bool.eq_iff_iff]
        simp only [Bool.and_eq_true, List.all_eq_true, ← forall_and]
      cases hformatted : (s :: rest).all (!·.formatted) with
      | false => simp only [Option.filter, hall, hformatted, Bool.false_and]; rfl
      | true =>
        simp only [Option.filter, hall, hformatted, Bool.true_and, if_true]
        split
        · cases s.bytes <;> rfl
        · rfl

/-- The expression of a node by its kind. -/
theorem ofNode_eq (n : Node) : ofNode n =
    if n.kind = "identifier" then .name n.text
    else if n.kind = "attribute" then
      match n.child? "object", n.child? "attribute" with
      | some object, some attr => .attribute (ofNode object) attr.text
      | _, _ => .other n.dump
    else if n.kind = "member_type" then
      match n.parts with
      | [object, attr] =>
        if attr.kind = "identifier" then .attribute (ofNode object) attr.text else .other n.dump
      | _ => .other n.dump
    else if n.kind = "string" then ofString n
    else if n.kind = "concatenated_string" then ofStrings n
    else if n.kind = "integer" then .constant (Literal.ofInteger n.text)
    else if n.kind = "float" then .constant (Literal.ofFloat n.text)
    else if n.kind = "list" then .list (n.parts.map ofNode) n.dump
    else if n.kind = "tuple" ∨ n.kind = "expression_list" then .tuple (n.parts.map ofNode) n.dump
    else if n.kind = "parenthesized_expression" ∨ n.kind = "type" then
      match n.parts with
      | [inner] => ofNode inner
      | _ => .other n.dump
    else if n.kind = "dictionary" then .dict n.dump
    else if n.kind = "true" then .constant (.bool true)
    else if n.kind = "false" then .constant (.bool false)
    else if n.kind = "none" then .constant .none
    else if n.kind = "ellipsis" then .constant .ellipsis
    else .other n.dump := by
  have hparts := readParts_ofNodes n
  have hfilter := filter_ofNodes n
  have hfind := find?_ofNodes n "object"
  cases n with | mk kind named field text row column children =>
  have hkind : (Node.mk kind named field text row column children).kind = kind := rfl
  have htext : (Node.mk kind named field text row column children).text = text := rfl
  rw [Node.children] at hparts hfilter hfind
  rw [ofNode.eq_def]
  simp only [hparts, hfilter, hfind]
  generalize Node.child? _ "object" = object, Node.child? _ "attribute" = attr,
    Node.parts _ = parts, Node.dump _ = dump
  clear hparts hfilter hfind
  -- The cases left over after the forms with parts differ in their kind only.
  split
  case h_2 => cases object <;> cases attr <;> simp [hkind]
  case h_3 => rcases parts with _ | ⟨object,_ | ⟨attr,_ | ⟨_,_⟩⟩⟩ <;> simp [hkind]
  case h_16 => rcases parts with _ | ⟨inner,_ | ⟨_,_⟩⟩ <;> simp [hkind]
  case h_17 => rcases parts with _ | ⟨inner,_ | ⟨_,_⟩⟩ <;> simp [hkind]
  case h_18 => grind
  all_goals simp [hkind, htext]

section Step

variable (h : ReadsLike lax parent n m)
  (ih : ∀ c ∈ n.children, ∀ {parent d : Node}, ReadsLike lax parent c d →
    (ofNode d).bare = (ofNode c).bare)

include h ih

private theorem bare_parts_step (hlisted : isListed n.kind n.field = true) :
    List.Forall₂ (fun c d => ReadsLike lax n c d ∧ (ofNode d).bare = (ofNode c).bare)
      n.parts m.parts := by
  have hparts := (List.forall₂_and_left (p := (· ∈ n.children)) ..).mpr
    ⟨fun _ => Node.mem_children_of_mem_parts,h.parts hlisted⟩
  exact hparts.imp fun c _ hcd => ⟨hcd.2,ih c hcd.1 hcd.2⟩

private theorem bareAll_step (hlisted : isListed n.kind n.field = true) :
    bareAll (m.parts.map ofNode) = bareAll (n.parts.map ofNode) := by
  rw [bareAll_eq, bareAll_eq, List.map_map, List.map_map]
  exact map_eq_of_forall₂ (bare_parts_step h ih hlisted) fun _ _ _ hcd => hcd.2

private theorem bare_attribute_step (hkind : n.kind = "attribute") :
    (match m.child? "object", m.child? "attribute" with
      | some object, some attr => (ofNode object).attribute attr.text
      | _, _ => .other m.dump).bare =
    (match n.child? "object", n.child? "attribute" with
      | some object, some attr => (ofNode object).attribute attr.text
      | _, _ => .other n.dump).bare := by
  have hread : isRead n.kind n.field = true := by simp [isRead, Node.roleKinds, hkind]
  have hobject := h.child? hread "object"
  have hattr := h.child?_text hread "attribute" (by simp [Node.copiedRoles, hkind])
  have hmem := @Node.mem_children_of_child? n "object"
  generalize n.child? "object" = object, m.child? "object" = object' at hobject hmem ⊢
  cases hobject with
  | none => rfl
  | some hobject =>
    have hbare := ih _ (hmem rfl).1 hobject
    cases hn : n.child? "attribute" <;> cases hm : m.child? "attribute" <;> simp_all [bare]

private theorem bare_member_step (hlisted : isListed n.kind n.field = true) :
    (match m.parts with
      | [object, attr] =>
        if attr.kind = "identifier" then (ofNode object).attribute attr.text else .other m.dump
      | _ => .other m.dump).bare =
    (match n.parts with
      | [object, attr] =>
        if attr.kind = "identifier" then (ofNode object).attribute attr.text else .other n.dump
      | _ => .other n.dump).bare := by
  have hrel := bare_parts_step h ih hlisted
  generalize n.parts = cs, m.parts = ds at hrel ⊢
  rcases hrel with _ | ⟨⟨-,hobject⟩,_ | ⟨⟨hattr,-⟩,_ | _⟩⟩
  · rfl
  · rfl
  · simp only [hattr.kind]
    refine apply_ite_eq bare (fun hkind => ?_) fun _ => rfl
    rw [bare, bare, hobject, hattr.words.copied (Node.isWord_of_kind (by simp [hkind]))]
  · rfl

private theorem bare_single_step (hlisted : isListed n.kind n.field = true) :
    (match m.parts with
      | [inner] => ofNode inner
      | _ => .other m.dump).bare =
    (match n.parts with
      | [inner] => ofNode inner
      | _ => .other n.dump).bare := by
  have hrel := bare_parts_step h ih hlisted
  generalize n.parts = cs, m.parts = ds at hrel ⊢
  rcases hrel with _ | ⟨⟨-,hinner⟩,_ | _⟩
  · rfl
  · exact hinner
  · rfl

end Step

private theorem bare_ofStrings_of_readsLike (h : ReadsLike lax parent n m)
    (hkind : n.kind = "concatenated_string") : (ofStrings m).bare = (ofStrings n).bare := by
  have hplain : m.parts.map (StringLiteral.plain? ·.text) =
      n.parts.map (StringLiteral.plain? ·.text) :=
    map_eq_of_forall₂ (h.parts (by simp [isListed, Node.listedKinds, hkind])) fun _ hc _ hcd =>
      hcd.words.literal (.inr ⟨hkind,(List.mem_filter.mp hc).2⟩)
  rw [ofStrings_bare, ofStrings_bare, hplain]

/-- But for dumps, the expression of a node is that of the node without extras. -/
theorem bare_ofNode (h : ReadsLike lax parent n m) : (ofNode m).bare = (ofNode n).bare := by
  induction n using Node.induction generalizing parent m with
  | node n ih =>
    have hlisted (hkind : Node.listedKinds.contains n.kind = true) :
        isListed n.kind n.field = true := by simp only [isListed, hkind, Bool.true_or]
    have hcopied (hkind : ["identifier", "integer", "float"].contains n.kind = true) :
        m.text = n.text := h.words.copied (Node.isWord_of_kind hkind)
    rw [ofNode_eq m, ofNode_eq n, h.kind]
    refine apply_ite_eq bare (fun hkind => ?_) fun _ => ?_
    · rw [hcopied (by simp [hkind])]
    refine apply_ite_eq bare (fun hkind => ?_) fun _ => ?_
    · exact bare_attribute_step h ih hkind
    refine apply_ite_eq bare (fun hkind => ?_) fun _ => ?_
    · exact bare_member_step h ih (hlisted (by simp [Node.listedKinds, hkind]))
    refine apply_ite_eq bare (fun hkind => ?_) fun _ => ?_
    · rw [ofString_bare, ofString_bare, h.words.literal (.inl hkind)]
    refine apply_ite_eq bare (fun hkind => ?_) fun _ => ?_
    · exact bare_ofStrings_of_readsLike h hkind
    refine apply_ite_eq bare (fun hkind => ?_) fun _ => ?_
    · rw [hcopied (by simp [hkind])]
    refine apply_ite_eq bare (fun hkind => ?_) fun _ => ?_
    · rw [hcopied (by simp [hkind])]
    refine apply_ite_eq bare (fun hkind => ?_) fun _ => ?_
    · rw [bare, bare, bareAll_step h ih (hlisted (by simp [Node.listedKinds, hkind]))]
    refine apply_ite_eq bare (fun hkind => ?_) fun _ => ?_
    · have hlisted := hlisted (by rcases hkind with h | h <;> simp [Node.listedKinds, h])
      rw [bare, bare, bareAll_step h ih hlisted]
    refine apply_ite_eq bare (fun hkind => ?_) fun _ => ?_
    · have hlisted := hlisted (by rcases hkind with h | h <;> simp [Node.listedKinds, h])
      exact bare_single_step h ih hlisted
    simp only [apply_ite bare, bare]

/-- But for dumps, the expression in a role is that without extras. -/
theorem bare_child? (h : ReadsLike lax parent n m) (hread : isRead n.kind n.field = true)
    (f : String) : (m.child? f).map (fun c => (ofNode c).bare) =
      (n.child? f).map fun c => (ofNode c).bare :=
  optionMap_eq_of_rel (h.child? hread f) fun _ _ _ hcd => bare_ofNode hcd

end Expr

namespace Target

theorem ofParts_eq (n : Node) : ofParts n.children = n.parts.map ofNode := by
  rw [Node.parts]
  induction n.children with
  | nil => rfl
  | cons c rest ih =>
    rw [ofParts, ih, List.filter_cons]
    split <;> rfl

/-- The target of a node by its kind. -/
theorem ofNode_eq (n : Node) : ofNode n =
    if n.kind = "identifier" then .name n.text
    else if isSequenceKind n.kind then .sequence (n.parts.map ofNode)
    else if n.kind = "parenthesized_expression" then
      match n.parts.map ofNode with
      | [inner] => inner
      | _ => .other
    else .other := by
  rw [← ofParts_eq]
  cases n
  rfl

/-- The target of a node is that of the node without extras. -/
theorem ofNode_of_readsLike (h : ReadsLike lax parent n m) : ofNode m = ofNode n := by
  induction n using Node.induction generalizing parent m with
  | node n ih =>
    have hparts (hlisted : isListed n.kind n.field = true) :
        m.parts.map ofNode = n.parts.map ofNode :=
      map_eq_of_forall₂ (h.parts hlisted) fun c hc d hd =>
        ih c (Node.mem_children_of_mem_parts hc) hd
    rw [ofNode_eq m, ofNode_eq n, h.kind]
    refine apply_ite_eq id (fun hkind => ?_) fun _ => ?_
    · rw [h.words.copied (Node.isWord_of_kind (by simp [hkind]))]
    refine apply_ite_eq id (fun hkind => ?_) fun _ => ?_
    · simp only [isSequenceKind, List.contains_eq_mem, List.mem_cons, List.not_mem_nil, or_false,
        decide_eq_true_eq] at hkind
      rw [hparts (by rcases hkind with h | h | h | h | h | h <;>
        simp [isListed, Node.listedKinds, h])]
    refine apply_ite_eq id (fun hkind => ?_) fun _ => rfl
    rw [hparts (by simp [isListed, Node.listedKinds, hkind])]

end Target

namespace Parameters

namespace Entry

private def bare : Entry → Entry
  | .plain p default _ => .plain p.bare (default.map Expr.bare) ⟨0, 0⟩
  | .star p => .star p.bare
  | .doubleStar p => .doubleStar p.bare
  | .keywordMark => .keywordMark
  | .nothing => .nothing

private theorem splatName_eq (h : ReadsLike lax parent n m)
    (hholds : parent.holdsParameters = true) (hkind : Node.splatKinds.contains n.kind = true) :
    splatName m = splatName n := by
  have hname := h.words.name hholds
  have hcopied : n.parts = [] → m.text = n.text :=
    fun hparts => h.words.copied (Node.isWord_of_splat hholds hkind hparts)
  simp only [Node.namePart?, h.kind, hkind, if_true] at hname
  rw [splatName, splatName]
  cases hn : n.parts <;> cases hm : m.parts <;> simp_all

private theorem ofTyped_eq (n : Node) : (ofTyped n).bare =
    match n.parts.head? with
    | none => .nothing
    | some inner =>
      if inner.kind = "list_splat_pattern" then .star
        ⟨splatName inner, (n.child? "type").map fun c => (Expr.ofNode c).bare⟩
      else if inner.kind = "dictionary_splat_pattern" then .doubleStar
        ⟨splatName inner, (n.child? "type").map fun c => (Expr.ofNode c).bare⟩
      else .plain ⟨inner.text, (n.child? "type").map fun c => (Expr.ofNode c).bare⟩ none
        ⟨0, 0⟩ := by
  rw [ofTyped]
  cases n.parts with
  | nil => rfl
  | cons inner rest =>
    simp only [List.head?_cons]
    split
    · simp [bare, Parameter.bare, Function.comp_def]
    · split <;> simp [bare, Parameter.bare, Function.comp_def]

private theorem ofTyped_bare (h : ReadsLike lax parent n m)
    (hholds : parent.holdsParameters = true) (hkind : n.kind = "typed_parameter") :
    (ofTyped m).bare = (ofTyped n).bare := by
  have hinside : n.holdsParameters = true := by simp [Node.holdsParameters, hkind]
  have hread : isRead n.kind n.field = true := by simp [isRead, leadKinds, hkind]
  have htype := Expr.bare_child? h hread "type"
  have hlead := h.lead (by simp [leadKinds, hkind])
  have hname := h.words.name hholds
  rw [ofTyped_eq, ofTyped_eq, htype]
  have hsplat : Node.splatKinds.contains "typed_parameter" = false := by decide
  simp only [Node.namePart?, h.kind, hkind, hsplat, Bool.false_eq_true, if_false, if_true] at hname
  generalize n.parts.head? = inner, m.parts.head? = inner' at hlead hname ⊢
  cases hlead with
  | none => rfl
  | @some c d hinner =>
    simp only [hinner.kind]
    by_cases hlist : c.kind = "list_splat_pattern"
    · rw [if_pos hlist, if_pos hlist,
        splatName_eq hinner hinside (by simp [Node.splatKinds, hlist])]
    · by_cases hdict : c.kind = "dictionary_splat_pattern"
      · rw [if_neg hlist, if_neg hlist, if_pos hdict, if_pos hdict,
          splatName_eq hinner hinside (by simp [Node.splatKinds, hdict])]
      · have hplain : (!Node.splatKinds.contains c.kind) = true := by
          simp [Node.splatKinds, hlist, hdict]
        simp only [Option.filter_some, hinner.kind, hplain, if_true, Option.map_some,
          Option.some.injEq] at hname
        rw [if_neg hlist, if_neg hlist, if_neg hdict, if_neg hdict, hname]

private theorem ofDefault_bare (h : ReadsLike lax parent n m)
    (hkind : n.kind = "default_parameter" ∨ n.kind = "typed_default_parameter") :
    (ofDefault m).bare = (ofDefault n).bare := by
  have hread : isRead n.kind n.field = true := by
    rcases hkind with hkind | hkind <;> simp [isRead, Node.roleKinds, hkind]
  have hname := h.child?_text hread "name" (by
    rcases hkind with hkind | hkind <;> simp [Node.copiedRoles, hkind])
  have htype := Expr.bare_child? h hread "type"
  have hvalue := Expr.bare_child? h hread "value"
  simp only [ofDefault, bare, Parameter.bare, Option.map_map, Function.comp_def, hname, htype,
    hvalue]

private theorem ofNode_bare (h : ReadsLike lax parent n m)
    (hholds : parent.holdsParameters = true) : (ofNode m).bare = (ofNode n).bare := by
  rw [ofNode, ofNode, h.kind]
  split
  · next hkind =>
    rw [h.words.copied (Node.isWord_of_kind (by simp [hkind]))]
    rfl
  · next hkind => exact ofTyped_bare h hholds hkind
  · next hkind => exact ofDefault_bare h (.inl hkind)
  · next hkind => exact ofDefault_bare h (.inr hkind)
  · next hkind => rw [splatName_eq h hholds (by simp [Node.splatKinds, hkind])]
  · next hkind => rw [splatName_eq h hholds (by simp [Node.splatKinds, hkind])]
  · rfl
  · rfl

end Entry

private def bareState (state : Parameters × Bool) : Parameters × Bool := (state.1.bare, state.2)

private theorem addPositional_bare (ps : Parameters) (p : Parameter) (default : Option Expr)
    (position : Position) : (ps.addPositional p default position).bare =
      ps.bare.addPositional p.bare (default.map Expr.bare) ⟨0, 0⟩ := by
  cases default with
  | some d => simp [addPositional, bare]
  | none =>
    cases hdefaults : ps.defaults.isEmpty <;> cases hmisplaced : ps.misplaced <;>
      simp_all [addPositional, bare]

private theorem add_bare (state : Parameters × Bool) (entry : Entry) :
    bareState (add state entry) = add (bareState state) entry.bare := by
  obtain ⟨ps,keywordOnly⟩ := state
  cases entry with
  | plain p default position =>
    cases keywordOnly with
    | true => simp [add, bareState, bare, Entry.bare]
    | false => simp [add, bareState, Entry.bare, addPositional_bare]
  | star p => rfl
  | doubleStar p => rfl
  | keywordMark => rfl
  | nothing => rfl

private theorem foldl_add_bare (state : Parameters × Bool) (entries : List Entry) :
    bareState (entries.foldl add state) = (entries.map Entry.bare).foldl add (bareState state) := by
  induction entries generalizing state with
  | nil => rfl
  | cons e rest ih => rw [List.foldl_cons, ih, add_bare, List.map_cons, List.foldl_cons]

private theorem foldl_add_filter (state : Parameters × Bool) (cs : List Node) :
    (cs.map Entry.ofNode).foldl add state =
      ((cs.filter (·.kind ≠ "line_continuation")).map Entry.ofNode).foldl add state := by
  induction cs generalizing state with
  | nil => rfl
  | cons c rest ih =>
    rw [List.map_cons, List.foldl_cons, ih, List.filter_cons]
    split
    · rfl
    · next hkind =>
      have hcontinued : c.kind = "line_continuation" := by simpa using hkind
      have hnothing : Entry.ofNode c = .nothing := by simp [Entry.ofNode, hcontinued]
      rw [hnothing]
      rfl

/-- But for dumps and positions, the parameters of a node are those of the node without extras. -/
theorem bare_ofNode (h : ReadsLike lax parent n m) (hfield : n.field = some "parameters") :
    (ofNode m).bare = (ofNode n).bare := by
  have hread : isRead n.kind n.field = true := by simp [isRead, hfield]
  have hholds : n.holdsParameters = true := by simp [Node.holdsParameters, hfield]
  have hentries : ((m.parts.filter (·.kind ≠ "line_continuation")).map Entry.ofNode).map
      Entry.bare = ((n.parts.filter (·.kind ≠ "line_continuation")).map Entry.ofNode).map
        Entry.bare := by
    rw [List.map_map, List.map_map]
    exact map_eq_of_forall₂ (h.partsOfKind hread (p := fun k => k ≠ "line_continuation") (by simp))
      fun _ _ _ hcd => Entry.ofNode_bare hcd hholds
  have hstate (n : Node) : (ofNode n).bare =
      (bareState ((n.parts.map Entry.ofNode).foldl add ({}, false))).1 := rfl
  rw [hstate, hstate, foldl_add_filter, foldl_add_bare, hentries, ← foldl_add_bare,
    ← foldl_add_filter]

end Parameters

/-- Whether some node passes a test depends only on the nodes that do. -/
theorem any_eq_of_filter {p : Node → Bool} {R : Node → Node → Prop} {cs ds : List Node}
    (h : List.Forall₂ R (cs.filter p) (ds.filter p)) : ds.any p = cs.any p := by
  have hany (xs : List Node) : xs.any p = !(xs.filter p).isEmpty := by
    induction xs with
    | nil => rfl
    | cons x rest ih =>
      rw [List.any_cons, ih, List.filter_cons]
      cases p x <;> rfl
  rw [hany, hany]
  generalize cs.filter p = cs', ds.filter p = ds' at h ⊢
  cases h with
  | nil => rfl
  | cons _ _ => rfl

namespace Function

/-- But for its line and dumps, the head of a function is that of the node without extras. -/
theorem bare_ofNode {ds ds' : List Expr} (h : ReadsLike lax parent n m)
    (hkind : n.kind = "function_definition") (hds : ds'.map Expr.bare = ds.map Expr.bare) :
    (ofNode ds' m).bare = (ofNode ds n).bare := by
  have hread : isRead n.kind n.field = true := by simp [isRead, Node.roleKinds, hkind]
  have hname := h.child?_text hread "name" (by simp [Node.copiedRoles, hkind])
  have hreturns := Expr.bare_child? h hread "return_type"
  have hasync : m.children.any (·.kind = "async") = n.children.any (·.kind = "async") := by
    refine any_eq_of_filter ((h.children hread).filter (fun _ _ hkind _ _ => by rw [hkind])
      fun e he _ => ?_)
    simp only [Node.isExtra, Bool.and_eq_true, Bool.or_eq_true, decide_eq_true_eq] at he
    rcases he.1.1 with he | he <;> simp [he]
  have hparameters : (((m.child? "parameters").map Parameters.ofNode).getD {}).bare =
      (((n.child? "parameters").map Parameters.ofNode).getD {}).bare := by
    have hchild := h.child? hread "parameters"
    have hmem := @Node.mem_children_of_child? n "parameters"
    generalize n.child? "parameters" = c, m.child? "parameters" = d at hchild hmem ⊢
    cases hchild with
    | none => rfl
    | some hcd => exact Parameters.bare_ofNode hcd (hmem rfl).2
  simp only [bare, ofNode, hname, hds, hasync, hparameters, Option.map_map, Function.comp_def,
    hreturns]

end Function

namespace Class

/-- But for dumps, the bases of a class are those of the node without extras. -/
theorem bare_basesOf (h : ReadsLike lax parent n m)
    (hlisted : isListed n.kind n.field = true) :
    (basesOf m).map Expr.bare = (basesOf n).map Expr.bare := by
  rw [basesOf, basesOf, List.map_map, List.map_map]
  refine map_eq_of_forall₂ (List.rel_filter ?_ (h.parts hlisted)) fun _ _ _ hcd =>
    Expr.bare_ofNode hcd
  intro c d hcd
  simp only [hcd.kind]

/-- But for its line and dumps, the head of a class is that of the node without extras. -/
theorem bare_ofNode {ds ds' : List Expr} (h : ReadsLike lax parent n m)
    (hkind : n.kind = "class_definition") (hds : ds'.map Expr.bare = ds.map Expr.bare) :
    (ofNode ds' m).bare = (ofNode ds n).bare := by
  have hread : isRead n.kind n.field = true := by simp [isRead, Node.roleKinds, hkind]
  have hname := h.child?_text hread "name" (by simp [Node.copiedRoles, hkind])
  have hbases : (((m.child? "superclasses").map basesOf).getD []).map Expr.bare =
      (((n.child? "superclasses").map basesOf).getD []).map Expr.bare := by
    have hchild := h.child? hread "superclasses"
    have hmem := @Node.mem_children_of_child? n "superclasses"
    generalize n.child? "superclasses" = c, m.child? "superclasses" = d at hchild hmem ⊢
    cases hchild with
    | none => rfl
    | some hcd => exact bare_basesOf hcd (by simp [isListed, (hmem rfl).2])
  simp only [bare, ofNode, hname, hds, hbases]

end Class

end DocSnapshot.Python
