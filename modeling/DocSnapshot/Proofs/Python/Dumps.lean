import DocSnapshot.Proofs.Python.Blocks

/-! Where dumps come from: whatever is not interpreted in the statements of a tree is the dump of
one of its nodes. -/
namespace DocSnapshot.Python

namespace Expr

mutual
def Dumped : Expr → Prop
  | .name _ | .constant _ => True
  | .attribute value _ => value.Dumped
  | .list elements dump | .tuple elements dump => DumpedAll elements ∧ ∃ n : Node, dump = n.dump
  | .dict dump | .other dump => ∃ n : Node, dump = n.dump

def DumpedAll : List Expr → Prop
  | [] => True
  | e :: rest => e.Dumped ∧ DumpedAll rest
end

theorem dumpedAll_iff (es : List Expr) : DumpedAll es ↔ ∀ e ∈ es, e.Dumped := by
  induction es with
  | nil => simp [DumpedAll]
  | cons e rest ih => rw [DumpedAll, ih, List.forall_mem_cons]

private theorem dumped_ofString (n : Node) : (ofString n).Dumped := by
  rw [ofString]
  repeat' split
  all_goals simp [Dumped]

private theorem dumped_ofStrings (n : Node) : (ofStrings n).Dumped := by
  rw [ofStrings]
  repeat' split
  all_goals simp [Dumped]

theorem dumped_ofNode (n : Node) : (ofNode n).Dumped := by
  induction n using Node.induction with
  | node n ih =>
    have hother : (Expr.other n.dump).Dumped := ⟨n,rfl⟩
    have hpart (c : Node) (hc : c ∈ n.parts) : (ofNode c).Dumped :=
      ih c (Node.mem_children_of_mem_parts hc)
    have hparts : DumpedAll (n.parts.map ofNode) := by
      rwa [dumpedAll_iff, List.forall_mem_map]
    rw [ofNode_eq]
    refine iteInduction (motive := Dumped) (fun _ => trivial) fun _ => ?_
    refine iteInduction (motive := Dumped) (fun _ => ?_) fun _ => ?_
    · split
      · next object _ hobject _ => exact ih object (Node.mem_children_of_child? hobject).1
      · exact hother
    refine iteInduction (motive := Dumped) (fun _ => ?_) fun _ => ?_
    · split
      · next object attr hparts =>
        exact iteInduction (motive := Dumped) (fun _ => hpart object (by simp [hparts]))
          fun _ => hother
      · exact hother
    refine iteInduction (motive := Dumped) (fun _ => dumped_ofString n) fun _ => ?_
    refine iteInduction (motive := Dumped) (fun _ => dumped_ofStrings n) fun _ => ?_
    refine iteInduction (motive := Dumped) (fun _ => trivial) fun _ => ?_
    refine iteInduction (motive := Dumped) (fun _ => trivial) fun _ => ?_
    refine iteInduction (motive := Dumped) (fun _ => ⟨hparts,n,rfl⟩) fun _ => ?_
    refine iteInduction (motive := Dumped) (fun _ => ⟨hparts,n,rfl⟩) fun _ => ?_
    refine iteInduction (motive := Dumped) (fun _ => ?_) fun _ => ?_
    · split
      · next inner hparts => exact hpart inner (by simp [hparts])
      · exact hother
    refine iteInduction (motive := Dumped) (fun _ => ⟨n,rfl⟩) fun _ => ?_
    refine iteInduction (motive := Dumped) (fun _ => trivial) fun _ => ?_
    refine iteInduction (motive := Dumped) (fun _ => trivial) fun _ => ?_
    refine iteInduction (motive := Dumped) (fun _ => trivial) fun _ => ?_
    exact iteInduction (motive := Dumped) (fun _ => trivial) fun _ => hother

end Expr

def Parameter.Dumped (p : Parameter) : Prop := ∀ e ∈ p.typeHint, e.Dumped

namespace Parameters

structure Dumped (ps : Parameters) : Prop where
  positional : ∀ p ∈ ps.positional, p.Dumped
  defaults : ∀ e ∈ ps.defaults, e.Dumped
  varPositional : ∀ p ∈ ps.varPositional, p.Dumped
  keywordOnly : ∀ p ∈ ps.keywordOnly, p.1.Dumped ∧ ∀ e ∈ p.2, e.Dumped
  varKeyword : ∀ p ∈ ps.varKeyword, p.Dumped

private def Entry.Dumped : Entry → Prop
  | .plain p default _ => p.Dumped ∧ ∀ e ∈ default, e.Dumped
  | .star p | .doubleStar p => p.Dumped
  | .keywordMark | .nothing => True

private theorem dumped_none (name : String) : Parameter.Dumped ⟨name, none⟩ := by
  simp [Parameter.Dumped]

theorem dumped_map (c : Option Node) : ∀ e ∈ c.map Expr.ofNode, e.Dumped := by
  cases c with
  | none => simp
  | some c => simpa using Expr.dumped_ofNode c

private theorem Entry.dumped_ofNode (n : Node) : (Entry.ofNode n).Dumped := by
  rw [Entry.ofNode]
  split
  · exact ⟨dumped_none _,by simp⟩
  · rw [Entry.ofTyped]
    split
    · trivial
    · refine iteInduction (motive := Entry.Dumped) (fun _ => dumped_map _) fun _ => ?_
      exact iteInduction (motive := Entry.Dumped) (fun _ => dumped_map _) fun _ =>
        ⟨dumped_map _,by simp⟩
  · exact ⟨dumped_map _,dumped_map _⟩
  · exact ⟨dumped_map _,dumped_map _⟩
  · exact dumped_none _
  · exact dumped_none _
  · trivial
  · trivial

private theorem Dumped.add {state : Parameters × Bool} {entry : Entry} (h : state.1.Dumped)
    (hentry : entry.Dumped) : (add state entry).1.Dumped := by
  obtain ⟨ps,keywordOnly⟩ := state
  cases entry with
  | plain p default position =>
    obtain ⟨hp,hdefault⟩ := hentry
    cases keywordOnly with
    | true =>
      refine { h with keywordOnly := ?_ }
      exact List.forall_mem_append.mpr ⟨h.keywordOnly,by simpa using ⟨hp,hdefault⟩⟩
    | false =>
      have hpositional : ∀ q ∈ ps.positional ++ [p], q.Dumped :=
        List.forall_mem_append.mpr ⟨h.positional,by simpa using hp⟩
      cases default with
      | none => exact { h with positional := hpositional }
      | some d =>
        refine { h with positional := hpositional, defaults := ?_ }
        exact List.forall_mem_append.mpr ⟨h.defaults,by simpa using hdefault⟩
  | star p =>
    refine { h with varPositional := fun q hq => ?_ }
    cases hq
    exact hentry
  | doubleStar p =>
    refine { h with varKeyword := fun q hq => ?_ }
    cases hq
    exact hentry
  | keywordMark => exact h
  | nothing => exact h

theorem dumped_ofNode (n : Node) : (ofNode n).Dumped := by
  have hfold (entries : List Entry) (state : Parameters × Bool) (hstate : state.1.Dumped)
      (hentries : ∀ e ∈ entries, e.Dumped) : (entries.foldl add state).1.Dumped := by
    induction entries generalizing state with
    | nil => exact hstate
    | cons e rest ih =>
      rw [List.forall_mem_cons] at hentries
      exact ih (Parameters.add state e) (hstate.add hentries.1) hentries.2
  refine hfold _ _ ⟨by simp,by simp,by simp,by simp,by simp⟩ ?_
  exact List.forall_mem_map.mpr fun c _ => Entry.dumped_ofNode c

end Parameters

structure Function.Dumped (f : Function) : Prop where
  decorators : ∀ e ∈ f.decorators, e.Dumped
  parameters : f.parameters.Dumped
  returns : ∀ e ∈ f.returns, e.Dumped

structure Class.Dumped (c : Class) : Prop where
  decorators : ∀ e ∈ c.decorators, e.Dumped
  bases : ∀ e ∈ c.bases, e.Dumped

theorem Function.dumped_ofNode {decorators : List Expr} (h : ∀ e ∈ decorators, e.Dumped)
    (n : Node) : (ofNode decorators n).Dumped where
  decorators := h
  parameters := by
    rw [ofNode]
    cases n.child? "parameters" with
    | none => exact ⟨by simp,by simp,by simp,by simp,by simp⟩
    | some c => exact Parameters.dumped_ofNode c
  returns := Parameters.dumped_map _

theorem Class.dumped_ofNode {decorators : List Expr} (h : ∀ e ∈ decorators, e.Dumped)
    (n : Node) : (ofNode decorators n).Dumped where
  decorators := h
  bases := by
    rw [ofNode]
    cases n.child? "superclasses" with
    | none => simp
    | some c => exact List.forall_mem_map.mpr fun a _ => Expr.dumped_ofNode a

namespace Stmt

mutual
def Dumped : Stmt → Prop
  | .functionDef f body => f.Dumped ∧ DumpedAll body
  | .classDef c body => c.Dumped ∧ DumpedAll body
  | .assign _ _ value | .expr value => value.Dumped
  | .nested blocks => DumpedBlocks blocks
  | .imports _ | .importsFrom _ _ | .other => True

def DumpedAll : List Stmt → Prop
  | [] => True
  | s :: rest => s.Dumped ∧ DumpedAll rest

def DumpedBlocks : List (List Stmt) → Prop
  | [] => True
  | b :: rest => DumpedAll b ∧ DumpedBlocks rest
end

theorem dumpedAll_iff (body : List Stmt) : DumpedAll body ↔ ∀ s ∈ body, s.Dumped := by
  induction body with
  | nil => simp [DumpedAll]
  | cons s rest ih => rw [DumpedAll, ih, List.forall_mem_cons]

theorem dumpedBlocks_iff (blocks : List (List Stmt)) :
    DumpedBlocks blocks ↔ ∀ b ∈ blocks, DumpedAll b := by
  induction blocks with
  | nil => simp [DumpedBlocks]
  | cons b rest ih => rw [DumpedBlocks, ih, List.forall_mem_cons]

mutual
theorem Dumped.walk : (s : Stmt) → s.Dumped → ∀ r ∈ s.walk, r.Dumped
  | .functionDef f body, h => by
    rw [Stmt.walk]
    exact List.forall_mem_cons.mpr ⟨h,DumpedAll.walkAll body h.2⟩
  | .classDef c body, h => by
    rw [Stmt.walk]
    exact List.forall_mem_cons.mpr ⟨h,DumpedAll.walkAll body h.2⟩
  | .nested blocks, h => by
    rw [Stmt.walk]
    exact List.forall_mem_cons.mpr ⟨h,DumpedBlocks.walkBlocks blocks h⟩
  | .imports _, h | .importsFrom _ _, h | .assign _ _ _, h | .expr _, h | .other, h =>
    List.forall_mem_singleton.mpr h

theorem DumpedAll.walkAll : (body : List Stmt) → DumpedAll body → ∀ r ∈ walkAll body, r.Dumped
  | [], _ => by simp [Stmt.walkAll]
  | s :: rest, h => by
    rw [Stmt.walkAll]
    exact List.forall_mem_append.mpr ⟨Dumped.walk s h.1,DumpedAll.walkAll rest h.2⟩

theorem DumpedBlocks.walkBlocks : (blocks : List (List Stmt)) → DumpedBlocks blocks →
    ∀ r ∈ walkBlocks blocks, r.Dumped
  | [], _ => by simp [Stmt.walkBlocks]
  | b :: rest, h => by
    rw [Stmt.walkBlocks]
    exact List.forall_mem_append.mpr ⟨DumpedAll.walkAll b h.1,DumpedBlocks.walkBlocks rest h.2⟩
end

private theorem dumped_ofAssignment (line : Nat) (n : Node) (targets : List Target) :
    (ofAssignment line n targets).Dumped := by
  induction n using Node.induction generalizing targets with
  | node n ih =>
    rw [ofAssignment_eq]
    refine iteInduction (motive := Dumped) (fun _ => trivial) fun _ => ?_
    split
    · next left right _ hright =>
      refine iteInduction (motive := Dumped) (fun _ => ?_) fun _ => Expr.dumped_ofNode right
      exact ih right (Node.mem_children_of_child? hright).1 _
    · trivial

private theorem dumped_ofExpressionStatement (n : Node) : (ofExpressionStatement n).Dumped := by
  rw [ofExpressionStatement]
  split
  · next single _ =>
    exact iteInduction (motive := Dumped) (fun _ => dumped_ofAssignment _ single [])
      fun _ => Expr.dumped_ofNode single
  · trivial

private theorem dumped_decoratorsOf (n : Node) : ∀ e ∈ decoratorsOf n, e.Dumped := by
  refine List.forall_mem_map.mpr fun d _ => ?_
  split
  · exact Expr.dumped_ofNode _
  · exact ⟨d,rfl⟩

private structure Sound (n : Node) : Prop where
  statement : (ofNode n).Dumped
  block : DumpedAll (ofBlock n)
  body : DumpedAll (ofBody n)
  clause : DumpedBlocks (clauseBlocks n)

private theorem sound (n : Node) : Sound n := by
  -- All readings at once, since each of them leads into the others.
  induction n using Node.induction with
  | node n ih =>
    have hblock : DumpedAll (ofBlock n) := by
      rw [ofBlock_eq, ofParts_eq, dumpedAll_iff, List.forall_mem_map]
      exact fun c hc => (ih c (Node.mem_children_of_mem_parts hc)).statement
    have hbody : DumpedAll (ofBody n) := by
      rw [ofBody_eq]
      cases hchild : n.child? "body" with
      | none => trivial
      | some c => exact (ih c (Node.mem_children_of_child? hchild).1).block
    have hclause : DumpedBlocks (clauseBlocks n) := by
      rw [clauseBlocks_eq, blocksOf_eq, dumpedBlocks_iff]
      intro b hb
      obtain ⟨c,hc,hb⟩ := List.mem_flatMap.mp hb
      have hsound := ih c (Node.mem_children_of_mem_parts (List.mem_filter.mp hc).1)
      split at hb
      · rw [List.mem_singleton.mp hb]
        exact hsound.block
      · exact (dumpedBlocks_iff _).mp hsound.clause b hb
    have hdefinition : (ofDefinition (decoratorsOf n) n.children).Dumped := by
      rw [ofDefinition_eq]
      cases hchild : n.child? "definition" with
      | none => trivial
      | some c =>
        have hsound := ih c (Node.mem_children_of_child? hchild).1
        refine iteInduction (motive := Dumped) (fun _ => ?_) fun _ => ?_
        · exact ⟨Function.dumped_ofNode (dumped_decoratorsOf n) c,hsound.body⟩
        refine iteInduction (motive := Dumped) (fun _ => ?_) fun _ => trivial
        exact ⟨Class.dumped_ofNode (dumped_decoratorsOf n) c,hsound.body⟩
    refine ⟨?_,hblock,hbody,hclause⟩
    rw [ofNode_eq, bodyOf_eq, ← clauseBlocks_eq]
    refine iteInduction (motive := Dumped) (fun _ => trivial) fun _ => ?_
    refine iteInduction (motive := Dumped) (fun _ => trivial) fun _ => ?_
    refine iteInduction (motive := Dumped) (fun _ => trivial) fun _ => ?_
    refine iteInduction (motive := Dumped) (fun _ => ?_) fun _ => ?_
    · exact ⟨Function.dumped_ofNode (by simp) n,hbody⟩
    refine iteInduction (motive := Dumped) (fun _ => ?_) fun _ => ?_
    · exact ⟨Class.dumped_ofNode (by simp) n,hbody⟩
    refine iteInduction (motive := Dumped) (fun _ => hdefinition) fun _ => ?_
    refine iteInduction (motive := Dumped) (fun _ => dumped_ofExpressionStatement n) fun _ => ?_
    exact iteInduction (motive := Dumped) (fun _ => hclause) fun _ => trivial

/-- The dumps in the statements of a block are dumps of nodes. -/
theorem dumped_ofBlock (n : Node) : DumpedAll (ofBlock n) := (sound n).block

end Stmt

end DocSnapshot.Python
