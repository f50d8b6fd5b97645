import DocSnapshot.Proofs.Python.Insertion
import DocSnapshot.Proofs.Python.Placement

/-! Extras go unnoticed in statements and in the blocks of statements, but for lines and dumps. -/
namespace DocSnapshot.Python
open DocSnapshot.Python.Node (Extends ReadsLike ReadsLikeAll Gap isRead isListed holdsStatements)

variable {lax : Bool} {parent n m : Node} {gap : Gap} {cs ds : List Node}

namespace Stmt

section Imports

private theorem compact_of_text (h : m.text = n.text) : m.compact = n.compact := by
  rw [Node.compact, Node.compact, h]

private theorem child?_compact (h : ReadsLike lax parent n m)
    (hread : isRead n.kind n.field = true) (f : String)
    (hrole : (n.kind, f) ∈ Node.copiedRoles) :
    (m.child? f).map Node.compact = (n.child? f).map Node.compact := by
  have hcompact (c : Option Node) : c.map Node.compact = (c.map Node.text).map fun text =>
      String.ofList (text.toList.filter (!Text.isBlank ·)) := by
    rw [Option.map_map]
    rfl
  rw [hcompact, hcompact, h.child?_text hread f hrole]

theorem importName_of_readsLike (h : ReadsLike lax parent n m)
    (himport : Node.importKinds.contains parent.kind = true) (hname : n.field = some "name") :
    importName m = importName n := by
  rw [importName, importName, h.kind]
  split
  · next hkind =>
    have hread : isRead n.kind n.field = true := by simp [isRead, Node.roleKinds, hkind]
    rw [child?_compact h hread "name" (by simp [Node.copiedRoles, hkind]),
      h.child?_text hread "alias" (by simp [Node.copiedRoles, hkind])]
  · next hkind => rw [compact_of_text (h.words.copied (Node.isWord_of_import himport hname hkind))]

theorem importNames_of_readsLike (h : ReadsLike lax parent n m)
    (himport : Node.importKinds.contains n.kind = true) : importNames m = importNames n := by
  have hread : isRead n.kind n.field = true := by
    simp only [Node.importKinds, List.contains_eq_mem, List.mem_cons, List.not_mem_nil, or_false,
      decide_eq_true_eq] at himport
    rcases himport with hkind | hkind | hkind <;> simp [isRead, Node.roleKinds, hkind]
  exact map_eq_of_forall₂ (h.childrenIn hread "name") fun c hc _ hcd =>
    importName_of_readsLike hcd himport (by simpa using (List.mem_filter.mp hc).2)

theorem ofImportFrom_of_readsLike (h : ReadsLike lax parent n m)
    (hkind : n.kind = "import_from_statement") : ofImportFrom m = ofImportFrom n := by
  have hread : isRead n.kind n.field = true := by simp [isRead, Node.roleKinds, hkind]
  have hwildcard : m.parts.any (·.kind = "wildcard_import") =
      n.parts.any (·.kind = "wildcard_import") :=
    any_eq_of_filter (h.partsOfKind hread (p := fun k => k = "wildcard_import") (by simp))
  rw [ofImportFrom, ofImportFrom, hwildcard,
    importNames_of_readsLike h (by simp [Node.importKinds, hkind]),
    child?_compact h hread "module_name" (by simp [Node.copiedRoles, hkind])]

end Imports

section Assignments

private theorem next_eq (line : Nat) (targets : List Target) (cs : List Node) :
    ofAssignment.next line targets cs =
      match cs.find? (·.field = some "right") with
      | none => .other
      | some c =>
        if c.kind = "assignment" then ofAssignment line c targets
        else .assign line targets (Expr.ofNode c) := by
  induction cs with
  | nil => rfl
  | cons c rest ih =>
    rw [ofAssignment.next, ih, List.find?_cons]
    by_cases hright : c.field = some "right"
    · simp [hright]
    · simp [hright]

/-- A chain of assignments by the roles of its parts. -/
theorem ofAssignment_eq (line : Nat) (n : Node) (targets : List Target) :
    ofAssignment line n targets =
      if (n.child? "type").isSome then .other
      else match n.child? "left", n.child? "right" with
        | some left, some right =>
          if right.kind = "assignment" then
            ofAssignment line right (targets ++ [Target.ofNode left])
          else .assign line (targets ++ [Target.ofNode left]) (Expr.ofNode right)
        | _, _ => .other := by
  have hfind : n.children.find? (·.field = some "right") = n.child? "right" := rfl
  cases n with | mk kind named field text row column children =>
  rw [Node.children] at hfind
  rw [ofAssignment]
  split
  · rfl
  · cases Node.child? _ "left" with
    | none => rfl
    | some left =>
      simp only [next_eq, hfind]
      cases Node.child? _ "right" <;> rfl

/-- But for lines and dumps, a chain of assignments is that of the node without extras. -/
theorem bare_ofAssignment (h : ReadsLike lax parent n m) (hkind : n.kind = "assignment")
    (line line' : Nat) (targets : List Target) :
    (ofAssignment line' m targets).bare lax = (ofAssignment line n targets).bare lax := by
  induction n using Node.induction generalizing parent m targets with
  | node n ih =>
    have hread : isRead n.kind n.field = true := by simp [isRead, Node.roleKinds, hkind]
    have htype : (m.child? "type").isSome = (n.child? "type").isSome := by
      have hrel := h.child? hread "type"
      generalize n.child? "type" = c, m.child? "type" = d at hrel ⊢
      cases hrel <;> rfl
    have hleft := h.child? hread "left"
    have hright := h.child? hread "right"
    have hmem := @Node.mem_children_of_child? n "right"
    rw [ofAssignment_eq line', ofAssignment_eq line, htype]
    split
    · rfl
    · generalize n.child? "left" = left, m.child? "left" = left' at hleft ⊢
      generalize n.child? "right" = right, m.child? "right" = right' at hright hmem ⊢
      cases hleft with
      | none => rfl
      | some hleft =>
        cases hright with
        | none => rfl
        | some hright =>
          simp only [hright.kind, Target.ofNode_of_readsLike hleft]
          split
          · next hchain => exact ih _ (hmem rfl).1 hright hchain _
          · rw [bare, bare, Expr.bare_ofNode hright]

/-- But for lines and dumps, an expression or assignment is that of the node without extras. -/
theorem bare_ofExpressionStatement (h : ReadsLike lax parent n m)
    (hkind : n.kind = "expression_statement") :
    (ofExpressionStatement m).bare lax = (ofExpressionStatement n).bare lax := by
  have hparts := h.parts (by simp [isListed, Node.listedKinds, hkind])
  rw [ofExpressionStatement, ofExpressionStatement]
  generalize n.parts = cs, m.parts = ds at hparts ⊢
  rcases hparts with _ | ⟨hsingle,_ | _⟩
  · rfl
  · simp only [hsingle.kind]
    split
    · next hchain => exact bare_ofAssignment hsingle hchain _ _ _
    · rw [bare, bare, Expr.bare_ofNode hsingle]
  · rfl

end Assignments

/-- But for dumps, the decorators of a definition are those of the node without extras. -/
theorem bare_decoratorsOf (h : ReadsLike lax parent n m)
    (hread : isRead n.kind n.field = true) :
    (decoratorsOf m).map Expr.bare = (decoratorsOf n).map Expr.bare := by
  rw [decoratorsOf, decoratorsOf, List.map_map, List.map_map]
  refine map_eq_of_forall₂ (h.partsOfKind hread (p := fun k => k = "decorator") (by simp))
    fun c hc d hcd => ?_
  have hkind : c.kind = "decorator" := by simpa using (List.mem_filter.mp hc).2
  have hlead := hcd.lead (by simp [Node.leadKinds, hkind])
  rw [Function.comp_apply, Function.comp_apply]
  cases hcs : c.parts with
  | nil =>
    cases hds : d.parts with
    | nil => rfl
    | cons _ _ => simp [hcs, hds] at hlead
  | cons e rest =>
    cases hds : d.parts with
    | nil => simp [hcs, hds] at hlead
    | cons e' rest' =>
      rw [hcs, hds] at hlead
      cases hlead with | some hfirst => exact Expr.bare_ofNode hfirst

section Blocks

theorem ofBlock_eq (n : Node) : ofBlock n = ofParts n.children := by
  cases n
  rfl

theorem ofParts_eq (n : Node) : ofParts n.children = n.parts.map ofNode := by
  rw [Node.parts]
  induction n.children with
  | nil => rfl
  | cons c rest ih =>
    rw [ofParts, ih, List.filter_cons]
    split <;> rfl

theorem bodyOf_eq (n : Node) : bodyOf n.children = ofBody n := by
  cases n
  rfl

theorem ofBody_eq (n : Node) : ofBody n = ((n.child? "body").map ofBlock).getD [] := by
  rw [← bodyOf_eq, Node.child?]
  induction n.children with
  | nil => rfl
  | cons c rest ih =>
    rw [bodyOf, ih, List.find?_cons]
    by_cases hbody : c.field = some "body"
    · simp [hbody]
    · simp [hbody]

/-- A decorated definition by its role. -/
theorem ofDefinition_eq (decorators : List Expr) (n : Node) :
    ofDefinition decorators n.children =
      match n.child? "definition" with
      | none => .other
      | some c =>
        if c.kind = "function_definition" then
          .functionDef (Function.ofNode decorators c) (ofBody c)
        else if c.kind = "class_definition" then .classDef (Class.ofNode decorators c) (ofBody c)
        else .other := by
  rw [Node.child?]
  induction n.children with
  | nil => rfl
  | cons c rest ih =>
    rw [ofDefinition, ih, List.find?_cons]
    by_cases hdefinition : c.field = some "definition"
    · simp [hdefinition]
    · simp [hdefinition]

def isBlockKind (kind : String) : Bool := kind = "block" || isClauseKind kind

/-- The blocks of a node by the kinds of its parts. -/
theorem blocksOf_eq (n : Node) : blocksOf n.children =
    (n.parts.filter (isBlockKind ·.kind)).flatMap fun c =>
      if c.kind = "block" then [ofBlock c] else clauseBlocks c := by
  rw [Node.parts, List.filter_filter]
  induction n.children with
  | nil => rfl
  | cons c rest ih =>
    rw [blocksOf, ih, List.filter_cons]
    by_cases hpart : c.isPart = true
    · by_cases hblock : c.kind = "block"
      · simp [hpart, hblock, isBlockKind]
      · by_cases hclause : isClauseKind c.kind = true
        · simp [hpart, hblock, hclause, isBlockKind]
        · simp [hpart, hblock, hclause, isBlockKind]
    · simp [hpart]

theorem clauseBlocks_eq (n : Node) : clauseBlocks n = blocksOf n.children := by
  cases n
  rfl

theorem bareBlocks_eq (blocks : List (List Stmt)) :
    bareBlocks lax blocks = blocks.map (bareBody lax) := by
  induction blocks with
  | nil => rfl
  | cons b rest ih => rw [bareBlocks, ih, List.map_cons]

private theorem ofNode_extra {e : Node} (h : e.isExtra = true) : ofNode e = .other := by
  simp only [Node.isExtra, Bool.and_eq_true, Bool.or_eq_true, decide_eq_true_eq] at h
  rw [ofNode_eq]
  rcases h.1.1 with hkind | hkind <;> simp [hkind, isCompoundKind]

private theorem ofParts_append (cs ds : List Node) :
    ofParts (cs ++ ds) = ofParts cs ++ ofParts ds := by
  induction cs with
  | nil => rfl
  | cons c rest ih =>
    rw [List.cons_append, ofParts, ofParts, ih]
    split <;> rfl

private theorem ofParts_extras {es : List Node} (h : ∀ e ∈ es, gap.admits e = true) :
    ∀ s ∈ ofParts es, s = .other ∧ gap = .everywhere := by
  induction es with
  | nil => simp [ofParts]
  | cons e rest ih =>
    rw [List.forall_mem_cons] at h
    obtain ⟨hextra,hkind⟩ := (gap.admits_iff e).mp h.1
    rw [ofParts]
    split
    · next hpart =>
      refine List.forall_mem_cons.mpr ⟨⟨ofNode_extra hextra,hkind.resolve_left ?_⟩,ih h.2⟩
      intro hcomment
      simp [Node.isPart, hcomment] at hpart
    · exact ih h.2

private theorem isOther_bare (lax : Bool) (s : Stmt) : (s.bare lax).isOther = s.isOther := by
  cases s <;> rfl

private theorem bareRest_others {ss rest : List Stmt} (h : ∀ s ∈ ss, s = .other ∧ lax = true) :
    bareRest lax (ss ++ rest) = bareRest lax rest := by
  induction ss with
  | nil => rfl
  | cons s ss ih =>
    rw [List.forall_mem_cons] at h
    rw [List.cons_append, bareRest, ih h.2, if_pos (by simp [h.1, isOther])]

private theorem bareRest_ofParts (h : ReadsLikeAll lax parent gap cs ds)
    (hgap : gap ≠ .nowhere → lax = true)
    (hstatement : ∀ c ∈ cs, ∀ d, ReadsLike lax parent c d →
      (ofNode d).bare lax = (ofNode c).bare lax) :
    bareRest lax (ofParts ds) = bareRest lax (ofParts cs) := by
  have hextras {gap : Gap} {es : List Node} (hgap : gap ≠ .nowhere → lax = true)
      (hes : ∀ e ∈ es, gap.admits e = true) : ∀ s ∈ ofParts es, s = .other ∧ lax = true :=
    fun s hs => (ofParts_extras hes s hs).imp id fun heverywhere => hgap (by simp [heverywhere])
  -- The gap changes from child to child, but never to or from `nowhere`, which keeps `hgap`.
  induction cs generalizing gap ds with
  | nil =>
    rw [ReadsLikeAll] at h
    have hdropped := @bareRest_others lax _ [] (hextras hgap h)
    rwa [List.append_nil] at hdropped
  | cons c cs ih =>
    rw [ReadsLikeAll] at h
    obtain ⟨before,d,after,rfl,hbefore,hhead,htail⟩ := h
    rw [List.forall_mem_cons] at hstatement
    have hrest := ih htail (fun hafter => hgap (mt (gap.after_eq_nowhere_iff c).mpr hafter))
      hstatement.2
    rw [ofParts_append, bareRest_others (hextras hgap hbefore), ofParts, ofParts, hhead.isPart]
    split
    · have hbare := hstatement.1 d hhead
      have hother : (ofNode d).isOther = (ofNode c).isOther := by
        rw [← isOther_bare lax, hbare, isOther_bare]
      rw [bareRest, bareRest, hrest, hbare, hother]
    · exact hrest

private theorem bareBody_ofParts (h : ReadsLikeAll lax parent gap cs ds)
    (hgap : gap ≠ .everywhere) (hlax : gap = .behind → lax = true)
    (hstatement : ∀ c ∈ cs, ∀ d, ReadsLike lax parent c d →
      (ofNode d).bare lax = (ofNode c).bare lax) :
    bareBody lax (ofParts ds) = bareBody lax (ofParts cs) := by
  have hextras {es : List Node} (hes : ∀ e ∈ es, gap.admits e = true) : ofParts es = [] :=
    List.eq_nil_iff_forall_not_mem.mpr fun s hs => hgap (ofParts_extras hes s hs).2
  -- The gap stays as it is up to the first part; behind that one the body is a rest.
  induction cs generalizing ds with
  | nil =>
    rw [ReadsLikeAll] at h
    rw [hextras h]
    rfl
  | cons c cs ih =>
    rw [ReadsLikeAll] at h
    obtain ⟨before,d,after,rfl,hbefore,hhead,htail⟩ := h
    rw [List.forall_mem_cons] at hstatement
    rw [ofParts_append, hextras hbefore, List.nil_append, ofParts, ofParts, hhead.isPart]
    split
    · next hpart =>
      have hafter : gap.after c ≠ .nowhere → lax = true := by
        rw [Ne, gap.after_eq_nowhere_iff]
        cases gap with
        | everywhere => exact absurd rfl hgap
        | behind => exact fun _ => hlax rfl
        | nowhere => exact fun hne => absurd rfl hne
      rw [bareBody, bareBody, hstatement.1 d hhead, bareRest_ofParts htail hafter hstatement.2]
    · next hpart =>
      have hafter : gap.after c = gap := by simp [Gap.after, hpart]
      exact ih (hafter ▸ htail) hstatement.2

private structure Alike (lax : Bool) (n m : Node) : Prop where
  statement : (ofNode m).bare lax = (ofNode n).bare lax
  block : holdsStatements n.kind n.field = true →
    bareBody lax (ofBlock m) = bareBody lax (ofBlock n)
  body : n.kind = "function_definition" ∨ n.kind = "class_definition" →
    bareBody lax (ofBody m) = bareBody lax (ofBody n)
  clause : isClauseKind n.kind = true →
    bareBlocks lax (clauseBlocks m) = bareBlocks lax (clauseBlocks n)

section Step

variable (h : ReadsLike lax parent n m)
  (ih : ∀ c ∈ n.children, ∀ {parent d : Node}, ReadsLike lax parent c d →
    Alike lax c d)

include h ih

private theorem bareBody_ofBlock_step (hholds : holdsStatements n.kind n.field = true) :
    bareBody lax (ofBlock m) = bareBody lax (ofBlock n) := by
  have hread : isRead n.kind n.field = true := by simp [isRead, hholds]
  rw [ofBlock_eq, ofBlock_eq]
  refine bareBody_ofParts (h.children hread) ?_ ?_ fun c hc d hcd => (ih c hc hcd).statement
  · rw [Node.gapOf, hholds]
    split
    · simp
    · cases lax <;> simp
  · rw [Node.gapOf, hholds]
    split
    · simp
    · cases lax <;> simp

private theorem bareBody_ofBody_step (hread : isRead n.kind n.field = true) :
    bareBody lax (ofBody m) = bareBody lax (ofBody n) := by
  have hbody := h.child? hread "body"
  have hmem := @Node.mem_children_of_child? n "body"
  rw [ofBody_eq, ofBody_eq]
  generalize n.child? "body" = c, m.child? "body" = d at hbody hmem ⊢
  cases hbody with
  | none => rfl
  | some hcd =>
    obtain ⟨hc,hfield⟩ := hmem rfl
    exact (ih _ hc hcd).block (by simp [holdsStatements, hfield])

private theorem bareBlocks_blocksOf_step (hread : isRead n.kind n.field = true) :
    bareBlocks lax (blocksOf m.children) = bareBlocks lax (blocksOf n.children) := by
  have hkinds := h.partsOfKind hread (p := isBlockKind) (by decide)
  rw [blocksOf_eq, blocksOf_eq, bareBlocks_eq, bareBlocks_eq, List.map_flatMap, List.map_flatMap,
    List.flatMap_def, List.flatMap_def]
  refine congrArg List.flatten (map_eq_of_forall₂ hkinds fun c hc d hcd => ?_)
  obtain ⟨hpart,hblockKind⟩ := List.mem_filter.mp hc
  have halike := ih c (Node.mem_children_of_mem_parts hpart) hcd
  rw [hcd.kind]
  split
  · next hblock =>
    rw [List.map_singleton, List.map_singleton, halike.block (by simp [holdsStatements, hblock])]
  · next hblock =>
    have hclause : isClauseKind c.kind = true := by simpa [isBlockKind, hblock] using hblockKind
    rw [← bareBlocks_eq, ← bareBlocks_eq, halike.clause hclause]

private theorem bare_ofDefinition_step {decorators decorators' : List Expr}
    (hread : isRead n.kind n.field = true)
    (hdecorators : decorators'.map Expr.bare = decorators.map Expr.bare) :
    (ofDefinition decorators' m.children).bare lax =
      (ofDefinition decorators n.children).bare lax := by
  have hdefinition := h.child? hread "definition"
  have hmem := @Node.mem_children_of_child? n "definition"
  rw [ofDefinition_eq, ofDefinition_eq]
  generalize n.child? "definition" = c, m.child? "definition" = d at hdefinition hmem ⊢
  cases hdefinition with
  | none => rfl
  | some hcd =>
    have halike := ih _ (hmem rfl).1 hcd
    simp only [hcd.kind]
    split
    · next hkind =>
      rw [bare, bare, Function.bare_ofNode hcd hkind hdecorators, halike.body (.inl hkind)]
    · split
      · next hkind =>
        rw [bare, bare, Class.bare_ofNode hcd hkind hdecorators, halike.body (.inr hkind)]
      · rfl

private theorem bare_ofNode_step : (ofNode m).bare lax = (ofNode n).bare lax := by
  have hread (hkind : Node.roleKinds.contains n.kind = true) : isRead n.kind n.field = true := by
    simp only [isRead, hkind, Bool.or_true, Bool.true_or]
  rw [ofNode_eq m, ofNode_eq n, h.kind, bodyOf_eq, bodyOf_eq]
  refine apply_ite_eq (bare lax) (fun hkind => ?_) fun _ => ?_
  · rw [importNames_of_readsLike h (by simp [Node.importKinds, hkind])]
  refine apply_ite_eq (bare lax) (fun hkind => ?_) fun _ => ?_
  · rw [ofImportFrom_of_readsLike h hkind]
  refine apply_ite_eq (bare lax) (fun hkind => ?_) fun _ => ?_
  · rw [importNames_of_readsLike h (by simp [Node.importKinds, hkind])]
  refine apply_ite_eq (bare lax) (fun hkind => ?_) fun _ => ?_
  · rw [bare, bare, Function.bare_ofNode h hkind rfl,
      bareBody_ofBody_step h ih (hread (by simp [Node.roleKinds, hkind]))]
  refine apply_ite_eq (bare lax) (fun hkind => ?_) fun _ => ?_
  · rw [bare, bare, Class.bare_ofNode h hkind rfl,
      bareBody_ofBody_step h ih (hread (by simp [Node.roleKinds, hkind]))]
  refine apply_ite_eq (bare lax) (fun hkind => ?_) fun _ => ?_
  · have hread := hread (by simp [Node.roleKinds, hkind])
    exact bare_ofDefinition_step h ih hread (bare_decoratorsOf h hread)
  refine apply_ite_eq (bare lax) (fun hkind => ?_) fun _ => ?_
  · exact bare_ofExpressionStatement h hkind
  refine apply_ite_eq (bare lax) (fun hkind => ?_) fun _ => rfl
  rw [bare, bare, bareBlocks_blocksOf_step h ih (by simp [isRead, hkind])]

end Step

private theorem alike_of_readsLike (h : ReadsLike lax parent n m) : Alike lax n m := by
  induction n using Node.induction generalizing parent m with
  | node n ih =>
    refine ⟨bare_ofNode_step h ih,bareBody_ofBlock_step h ih,fun hkind => ?_,fun hclause => ?_⟩
    · exact bareBody_ofBody_step h ih
        (by rcases hkind with hkind | hkind <;> simp [isRead, Node.roleKinds, hkind])
    · rw [clauseBlocks_eq, clauseBlocks_eq]
      exact bareBlocks_blocksOf_step h ih (by simp [isRead, hclause])

/-- But for lines and dumps, blocks that read alike have the same statements. -/
theorem bareBody_of_readsLike (h : ReadsLike lax parent n m)
    (hholds : holdsStatements n.kind n.field = true) :
    bareBody lax (ofBlock m) = bareBody lax (ofBlock n) := (alike_of_readsLike h).block hholds

/-- But for lines and dumps, the statements of a block are those of the block without extras. -/
theorem bareBody_ofBlock {kind : String} (h : Extends lax false kind n m)
    (hholds : holdsStatements n.kind n.field = true) :
    bareBody lax (ofBlock m) = bareBody lax (ofBlock n) := by
  have hreads : ReadsLike lax (.mk kind true none "" 0 0 []) n m := h.readsLike rfl
  exact bareBody_of_readsLike hreads hholds

end Blocks

end Stmt

end DocSnapshot.Python
