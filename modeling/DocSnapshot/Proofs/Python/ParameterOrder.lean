import Mathlib.Data.List.Lex
import DocSnapshot.Proofs.Python.Depth
import DocSnapshot.Proofs.Python.Traversal
import DocSnapshot.Proofs.Record.Arguments

/-! A parameter without a default must not stand behind one with a default. A tree that breaks this
rule anywhere is refused, and the error tells where it is broken first. -/
namespace DocSnapshot.Python
open DocSnapshot.Python.Node (leaf branch)
open DocSnapshot.Python.Parameters (add Entry)

namespace Node

def isRequired (c : Node) : Bool := c.isPlain && !c.hasDefaultKind

/-- Whether a node has what the grammar gives it of parameters: a function has one parameter list,
in front of its body, and a parameter with a default has a value. -/
def formsParameters (n : Node) : Bool :=
  (n.kind ≠ "function_definition" || decide (n.children.Pairwise fun c d =>
    c.field = some "parameters" ∨ c.field = some "body" → d.field ≠ some "parameters")) &&
  (!n.hasDefaultKind || (n.child? "value").isSome)

/-- Whether a child of a parameter list is a positional parameter without a default behind one with
a default. -/
structure Misplaced (list : Node) (j : Nat) (c : Node) : Prop where
  child : list.children[j]? = some c
  part : c.isPart = true
  required : c.isRequired = true
  behind : ∃ i d, i < j ∧ list.children[i]? = some d ∧ d.isPart = true ∧ d.hasDefaultKind = true
  positional : ∀ i d, i < j → list.children[i]? = some d → d.isPart = true →
    d.endsPositional = false

/-- Whether a child of the parameter list of a function, at the indices of both, is misplaced. -/
structure HoldsMisplaced (f : Node) (i j : Nat) (c : Node) : Prop where
  function : f.kind = "function_definition"
  exists_list : ∃ list, f.children[i]? = some list ∧ list.field = some "parameters" ∧
    list.Misplaced j c

/-- Whether a misplaced parameter stands at a place in a tree. -/
def MisplacedAt (root : Node) (p : Python.Place) (c : Node) : Prop :=
  ∃ q f i j, p = q ++ [i, j] ∧ root.at? q = some f ∧ f.HoldsMisplaced i j c

end Node

section List

private def firstMisplaced? (seen : Bool) : List Node → Option Node
  | [] => none
  | c :: cs =>
    if !c.isPart then firstMisplaced? seen cs
    else if c.endsPositional then none
    else if seen && c.isRequired then some c
    else firstMisplaced? (seen || c.hasDefaultKind) cs

private structure MisplacedFrom (seen : Bool) (cs : List Node) (j : Nat) (c : Node) : Prop where
  child : cs[j]? = some c
  part : c.isPart = true
  required : c.isRequired = true
  behind : seen = true ∨
    ∃ i d, i < j ∧ cs[i]? = some d ∧ d.isPart = true ∧ d.hasDefaultKind = true
  positional : ∀ i d, i < j → cs[i]? = some d → d.isPart = true → d.endsPositional = false

variable {seen : Bool} {c d : Node} {cs : List Node} {j : Nat}

private theorem misplaced_iff {list : Node} :
    list.Misplaced j c ↔ MisplacedFrom false list.children j c := by
  constructor
  · rintro ⟨hchild,hpart,hrequired,hbehind,hpositional⟩
    exact ⟨hchild,hpart,hrequired,.inr hbehind,hpositional⟩
  · rintro ⟨hchild,hpart,hrequired,hbehind,hpositional⟩
    exact ⟨hchild,hpart,hrequired,hbehind.resolve_left (by decide),hpositional⟩

private theorem misplacedFrom_zero_iff : MisplacedFrom seen (c :: cs) 0 d ↔
    d = c ∧ c.isPart = true ∧ c.isRequired = true ∧ seen = true := by
  constructor
  · rintro ⟨hchild,hpart,hrequired,hbehind,-⟩
    obtain rfl : c = d := by simpa using hchild
    exact ⟨rfl,hpart,hrequired,hbehind.resolve_right (by simp)⟩
  · rintro ⟨rfl,hpart,hrequired,hseen⟩
    exact ⟨rfl,hpart,hrequired,.inl hseen,fun i d hi => absurd hi (Nat.not_lt_zero i)⟩

private theorem misplacedFrom_succ_iff : MisplacedFrom seen (c :: cs) (j + 1) d ↔
    (c.isPart = true → c.endsPositional = false) ∧
      MisplacedFrom (seen || c.isPart && c.hasDefaultKind) cs j d := by
  constructor
  · rintro ⟨hchild,hpart,hrequired,hbehind,hpositional⟩
    refine ⟨hpositional 0 c (Nat.succ_pos j) rfl,hchild,hpart,hrequired,?_,
      fun i e hi => hpositional (i + 1) e (Nat.succ_lt_succ hi)⟩
    rcases hbehind with hseen | ⟨i,e,hi,he,hepart,hdefault⟩
    · exact .inl (by simp [hseen])
    · cases i with
      | zero =>
        obtain rfl : c = e := by simpa using he
        exact .inl (by simp [hepart, hdefault])
      | succ i => exact .inr ⟨i,e,Nat.lt_of_succ_lt_succ hi,he,hepart,hdefault⟩
  · rintro ⟨hc,hchild,hpart,hrequired,hbehind,hpositional⟩
    refine ⟨hchild,hpart,hrequired,?_,fun i e hi he => ?_⟩
    · rcases hbehind with hseen | ⟨i,e,hi,he,hepart,hdefault⟩
      · rw [Bool.or_eq_true, Bool.and_eq_true] at hseen
        exact hseen.imp_right fun hc => ⟨0,c,Nat.succ_pos j,rfl,hc⟩
      · exact .inr ⟨i + 1,e,Nat.succ_lt_succ hi,he,hepart,hdefault⟩
    · cases i with
      | zero =>
        obtain rfl : c = e := by simpa using he
        exact hc
      | succ i => exact hpositional i e (Nat.lt_of_succ_lt_succ hi) he

private def IsFirst (seen : Bool) (cs : List Node) (j : Nat) (c : Node) : Prop :=
  MisplacedFrom seen cs j c ∧ ∀ i d, i < j → ¬MisplacedFrom seen cs i d

private theorem isFirst_succ (hc : c.isPart = true → c.endsPositional = false)
    (hself : ¬MisplacedFrom seen (c :: cs) 0 c)
    (h : IsFirst (seen || c.isPart && c.hasDefaultKind) cs j d) :
    IsFirst seen (c :: cs) (j + 1) d := by
  refine ⟨misplacedFrom_succ_iff.mpr ⟨hc,h.1⟩,fun i e hi he => ?_⟩
  cases i with
  | zero =>
    obtain rfl := (misplacedFrom_zero_iff.mp he).1
    exact hself he
  | succ i => exact h.2 i e (Nat.lt_of_succ_lt_succ hi) (misplacedFrom_succ_iff.mp he).2

private theorem not_misplacedFrom_zero (h : ¬(seen && c.isRequired) = true) :
    ¬MisplacedFrom seen (c :: cs) 0 d := by
  intro hd
  obtain ⟨-,-,hrequired,hseen⟩ := misplacedFrom_zero_iff.mp hd
  exact h (by rw [hseen, hrequired]; rfl)

private theorem exists_isFirst (h : firstMisplaced? seen cs = some d) :
    ∃ j, IsFirst seen cs j d := by
  fun_induction firstMisplaced? seen cs with
  | case1 seen => cases h
  | case2 seen c cs hpart ih =>
    obtain ⟨j,hj⟩ := ih h
    have hpart : c.isPart = false := by simpa using hpart
    refine ⟨j + 1,isFirst_succ (by simp [hpart]) (fun hc => ?_) (by simpa [hpart] using hj)⟩
    simpa [hpart] using hc.part
  | case3 seen c cs hpart hends => cases h
  | case4 seen c cs hpart hends hfound =>
    have hpart : c.isPart = true := by simpa using hpart
    rw [Bool.and_eq_true] at hfound
    cases h
    exact ⟨0,misplacedFrom_zero_iff.mpr ⟨rfl,hpart,hfound.2,hfound.1⟩,
      fun i e hi => absurd hi (Nat.not_lt_zero i)⟩
  | case5 seen c cs hpart hends hfound ih =>
    obtain ⟨j,hj⟩ := ih h
    have hpart : c.isPart = true := by simpa using hpart
    exact ⟨j + 1,isFirst_succ (fun _ => by simpa using hends) (not_misplacedFrom_zero hfound)
      (by simpa [hpart] using hj)⟩

private theorem endsPositional_of_isRequired (h : c.isRequired = true) :
    c.endsPositional = false := by
  rw [Node.isRequired, Bool.and_eq_true] at h
  exact (Record.isStar_of_isPlain h.1).1

private theorem not_misplacedFrom (h : firstMisplaced? seen cs = none) (j : Nat) (d : Node) :
    ¬MisplacedFrom seen cs j d := by
  intro hd
  fun_induction firstMisplaced? seen cs generalizing j with
  | case1 seen => cases hd.child
  | case2 seen c cs hpart ih =>
    have hpart : c.isPart = false := by simpa using hpart
    cases j with
    | zero => simpa [hpart] using (misplacedFrom_zero_iff.mp hd).2.1
    | succ j => exact ih h j (by simpa [hpart] using (misplacedFrom_succ_iff.mp hd).2)
  | case3 seen c cs hpart hends =>
    have hpart : c.isPart = true := by simpa using hpart
    cases j with
    | zero => simp [endsPositional_of_isRequired (misplacedFrom_zero_iff.mp hd).2.2.1] at hends
    | succ j => simp [(misplacedFrom_succ_iff.mp hd).1 hpart] at hends
  | case4 seen c cs hpart hends hfound => cases h
  | case5 seen c cs hpart hends hfound ih =>
    have hpart : c.isPart = true := by simpa using hpart
    cases j with
    | zero => exact not_misplacedFrom_zero hfound hd
    | succ j => exact ih h j (by simpa [hpart] using (misplacedFrom_succ_iff.mp hd).2)

end List

section Fold

variable {c : Node} {cs : List Node}

private theorem misplaced_foldl_keywordOnly (entries : List Entry) (ps : Parameters) :
    (entries.foldl add (ps, true)).1.misplaced = ps.misplaced := by
  induction entries generalizing ps with
  | nil => rfl
  | cons e entries ih =>
    rw [List.foldl_cons]
    cases e <;> exact ih _

private theorem add_positional (hends : c.endsPositional = false)
    (hvalue : c.hasDefaultKind = true → (c.child? "value").isSome = true) (ps : Parameters) :
    ∃ qs, add (ps, false) (Entry.ofNode c) = (qs, false) ∧
      qs.defaults.isEmpty = (ps.defaults.isEmpty && !c.hasDefaultKind) ∧
      qs.misplaced = ps.misplaced.or
        (if !ps.defaults.isEmpty && c.isRequired then some c.position else none) := by
  -- In front of a star the first default makes a difference to the parameters behind it.
  rw [Record.entry_eq]
  have hstar : c.isStar = false ∧ c.kind ≠ "keyword_separator" := by
    simpa [Node.endsPositional] using hends
  by_cases hdefault : c.hasDefaultKind = true
  · obtain ⟨v,hv⟩ := Option.isSome_iff_exists.mp (hvalue hdefault)
    have hplain : c.isPlain = true := by simp [Node.isPlain, hdefault]
    have hvalue : c.valueNode? = some v := by simp [Node.valueNode?, hdefault, hv]
    simp [hplain, hvalue, hdefault, Node.isRequired, add, Parameters.addPositional]
  · by_cases hplain : c.isPlain = true
    · have hvalue : c.valueNode? = none := by simp [Node.valueNode?, hdefault]
      simp [hplain, hvalue, hdefault, Node.isRequired, add, Parameters.addPositional]
    · have hdouble : c.isDoubleStar = true ∨ c.isDoubleStar = false := by simp
      rcases hdouble with h | h <;>
        simp [hplain, hstar, h, hdefault, Node.isRequired, add]

private theorem foldl_misplaced (hvalue : ∀ c ∈ cs, c.hasDefaultKind = true →
    (c.child? "value").isSome = true) (ps : Parameters) :
    (((cs.filter Node.isPart).map Entry.ofNode).foldl add (ps, false)).1.misplaced =
      ps.misplaced.or ((firstMisplaced? (!ps.defaults.isEmpty) cs).map Node.position) := by
  induction cs generalizing ps with
  | nil => simp [firstMisplaced?]
  | cons c cs ih =>
    rw [List.forall_mem_cons] at hvalue
    by_cases hpart : c.isPart = true
    · rw [List.filter_cons_of_pos hpart, List.map_cons, List.foldl_cons]
      by_cases hends : c.endsPositional = true
      · rw [Record.add_endsPositional hends, ← List.foldl_cons, misplaced_foldl_keywordOnly]
        simp [firstMisplaced?, hpart, hends]
      · rw [Bool.not_eq_true] at hends
        obtain ⟨qs,hadd,hdefaults,hmisplaced⟩ := add_positional hends hvalue.1 ps
        rw [hadd, ih hvalue.2, hdefaults, hmisplaced, Option.or_assoc]
        by_cases hfound : (!ps.defaults.isEmpty && c.isRequired) = true
        · simp [firstMisplaced?, hpart, hends, hfound]
        · simp [firstMisplaced?, hpart, hends, hfound]
    · rw [List.filter_cons_of_neg hpart, ih hvalue.2]
      simp [firstMisplaced?, hpart]

end Fold

section Function

variable {f c d list : Node} {i j k : Nat}

private theorem value_of_formsParameters (h : c.formsParameters = true)
    (hdefault : c.hasDefaultKind = true) : (c.child? "value").isSome = true := by
  simp only [Node.formsParameters, Bool.and_eq_true, hdefault] at h
  exact h.2

private theorem field_of_formsParameters (h : f.formsParameters = true)
    (hf : f.kind = "function_definition") (hc : f.children[i]? = some c)
    (hd : f.children[k]? = some d) (hik : i < k)
    (hfield : c.field = some "parameters" ∨ c.field = some "body") :
    d.field ≠ some "parameters" := by
  simp only [Node.formsParameters, hf, Bool.and_eq_true, ne_eq, not_true_eq_false, decide_false,
    Bool.false_or, decide_eq_true_eq] at h
  obtain ⟨hi,rfl⟩ := List.getElem?_eq_some_iff.mp hc
  obtain ⟨hk,rfl⟩ := List.getElem?_eq_some_iff.mp hd
  exact List.pairwise_iff_getElem.mp h.1 i k hi hk hik hfield

private theorem child?_parameters (h : f.formsParameters = true)
    (hf : f.kind = "function_definition") (hlist : f.children[i]? = some list)
    (hfield : list.field = some "parameters") : f.child? "parameters" = some list := by
  obtain ⟨hi,hget⟩ := List.getElem?_eq_some_iff.mp hlist
  refine List.find?_eq_some_iff_getElem.mpr ⟨by simpa using hfield,i,hi,hget,fun k hk => ?_⟩
  have hkget : f.children[k]? = some f.children[k] := List.getElem?_eq_getElem _
  by_contra hother
  exact field_of_formsParameters h hf hkget hlist hk (.inl (by simpa using hother)) hfield

private def misplacedOf (n : Node) : Option Position :=
  if n.kind = "function_definition" then (Function.ofNode [] n).parameters.misplaced else none

private theorem misplacedOf_eq (hforms : ∀ c ∈ list.children, c.formsParameters = true)
    (hf : f.kind = "function_definition") (hlist : f.child? "parameters" = some list) :
    misplacedOf f = (firstMisplaced? false list.children).map Node.position := by
  have hfold := foldl_misplaced
    (fun c hc hdefault => value_of_formsParameters (hforms c hc) hdefault) {}
  rw [misplacedOf, if_pos hf, Function.ofNode, hlist]
  exact hfold

private theorem not_holdsMisplaced (h : f.formsParameters = true)
    (hforms : ∀ e ∈ f.children, ∀ c ∈ e.children, c.formsParameters = true)
    (hnone : misplacedOf f = none) : ¬f.HoldsMisplaced i j c := by
  rintro ⟨hf,list,hlist,hfield,hmisplaced⟩
  rw [misplacedOf_eq (hforms list (List.mem_of_getElem? hlist)) hf
    (child?_parameters h hf hlist hfield), Option.map_eq_none_iff] at hnone
  exact not_misplacedFrom hnone j c (misplaced_iff.mp hmisplaced)

private theorem exists_holdsMisplaced (h : f.formsParameters = true)
    (hforms : ∀ e ∈ f.children, ∀ c ∈ e.children, c.formsParameters = true) {p : Position}
    (hsome : misplacedOf f = some p) : ∃ i j c, f.HoldsMisplaced i j c ∧ p = c.position ∧
      ∀ k l d, f.HoldsMisplaced k l d → k = i ∧ j ≤ l := by
  have hf : f.kind = "function_definition" := by
    by_contra hf
    simp [misplacedOf, hf] at hsome
  cases hchild : f.child? "parameters" with
  | none => simp [misplacedOf, hf, Function.ofNode, hchild] at hsome
  | some list =>
    obtain ⟨hfield,i,hi,rfl,-⟩ := List.find?_eq_some_iff_getElem.mp hchild
    have hlist : f.children[i]? = some f.children[i] := List.getElem?_eq_getElem hi
    rw [decide_eq_true_eq] at hfield
    rw [misplacedOf_eq (hforms _ (List.getElem_mem hi)) hf hchild,
      Option.map_eq_some_iff] at hsome
    obtain ⟨c,hc,rfl⟩ := hsome
    obtain ⟨j,hj,hfirst⟩ := exists_isFirst hc
    refine ⟨i,j,c,⟨hf,_,hlist,hfield,misplaced_iff.mpr hj⟩,rfl,?_⟩
    rintro k l d ⟨-,other,hother,hfield',hmisplaced⟩
    obtain rfl : k = i := by
      rcases lt_trichotomy k i with hlt | heq | hlt
      · exact absurd hfield (field_of_formsParameters h hf hother hlist hlt (.inl hfield'))
      · exact heq
      · exact absurd hfield' (field_of_formsParameters h hf hlist hother hlt (.inl hfield))
    cases hlist.symm.trans hother
    exact ⟨rfl,Nat.not_lt.mp fun hlt => hfirst l d hlt (misplaced_iff.mp hmisplaced)⟩

end Function

section Module

variable {root c d : Node} {p q : Place}

private def misplacedIn : Stmt → Option Position
  | .functionDef f _ => f.parameters.misplaced
  | _ => none

private theorem mirrors_misplaced :
    Mirrors (fun n => (misplacedOf n).toList) (fun s => (misplacedIn s).toList) where
  -- A function notes the same whether it is decorated or not; nothing else notes anything.
  idle {n} h := by
    have hf : n.kind ≠ "function_definition" := by
      intro hf
      simp [Node.role, hf] at h
    simp [misplacedOf, hf]
  importing {n} h := by
    rw [Stmt.ofNode_eq]
    rcases kind_of_role h with hk | hk | hk <;>
      simp [hk, misplacedOf, misplacedIn, Stmt.ofImportFrom]
  functionDef _ _ n h := by
    rw [misplacedOf, if_pos h]
    rfl
  classDef _ _ n h := by simp [misplacedOf, misplacedIn, h]
  assign _ _ _ := rfl
  expr _ := rfl
  nested _ := rfl
  other := rfl

private theorem misplaced?_eq (h : root.isModule) :
    Stmt.misplaced? (Stmt.ofBlock root) = root.preorder.findSome? misplacedOf := by
  have hwalk := congrArg List.head? (mirrors_misplaced.flatMap_walkAll h)
  rw [List.head?_flatMap, List.head?_flatMap] at hwalk
  simp only [Option.head?_toList] at hwalk
  exact hwalk

theorem at?_of_misplacedAt (h : root.MisplacedAt p c) : root.at? p = some c := by
  obtain ⟨q,f,i,j,rfl,hf,-,list,hlist,-,hmisplaced⟩ := h
  rw [Node.at?_append, hf]
  simp [Node.at?, hlist, hmisplaced.child]

private theorem mem_preorder_of_at? (h : root.at? p = some c) : c ∈ root.preorder := by
  obtain ⟨d,hd,hat⟩ := (lists_preorder root).exists_entry (Option.isSome_of_eq_some h)
  cases h.symm.trans hat
  exact hd

private theorem formsParameters_below (h : root.preorder.all Node.formsParameters = true)
    (hc : root.at? p = some c) : c.formsParameters = true ∧
      ∀ e ∈ c.children, ∀ d ∈ e.children, d.formsParameters = true := by
  have hall := List.all_eq_true.mp h
  refine ⟨hall c (mem_preorder_of_at? hc),fun e he d hd => hall d ?_⟩
  obtain ⟨i,hi⟩ := List.mem_iff_getElem?.mp he
  obtain ⟨j,hj⟩ := List.mem_iff_getElem?.mp hd
  refine mem_preorder_of_at? (p := p ++ [i, j]) ?_
  rw [Node.at?_append, hc]
  simp [Node.at?, hi, hj]

private theorem not_misplacedAt (h : root.preorder.all Node.formsParameters = true)
    (hnone : root.preorder.findSome? misplacedOf = none) : ¬root.MisplacedAt p c := by
  rintro ⟨q,f,i,j,-,hf,hheld⟩
  obtain ⟨hforms,hbelow⟩ := formsParameters_below h hf
  exact not_holdsMisplaced hforms hbelow
    (List.findSome?_eq_none_iff.mp hnone f (mem_preorder_of_at? hf)) hheld

private theorem role_of_function {f : Node} (h : f.kind = "function_definition") :
    f.role = .definition := by
  simp [Node.role, h]

private theorem parameters_before_body {f g : Node} {i j k : Nat} {r : Place} (hplaced : Placed f)
    (hforms : f.formsParameters = true) (hc : f.HoldsMisplaced i j c)
    (hg : f.at? (k :: r) = some g) (hfunction : g.kind = "function_definition") : i < k := by
  -- A function inside a function stands behind the parameters of the outer one.
  obtain ⟨hf,list,hlist,hfield,-⟩ := hc
  obtain ⟨e,he,hbelow⟩ := Option.bind_eq_some_iff.mp hg
  have hbody : e.field = some "body" :=
    body_of_definition_below hplaced (role_of_function hf) he hbelow (role_of_function hfunction)
  rcases lt_trichotomy i k with hlt | rfl | hlt
  · exact hlt
  · cases hlist.symm.trans he
    simp [hfield] at hbody
  · exact absurd hfield (field_of_formsParameters hforms hf he hlist hlt (.inr hbody))

private theorem exists_first_misplacedAt (hmodule : root.isModule)
    (hforms : root.preorder.all Node.formsParameters = true) {e : Position}
    (hsome : root.preorder.findSome? misplacedOf = some e) :
    ∃ p c, root.MisplacedAt p c ∧ (∀ q d, root.MisplacedAt q d → ¬q.Before p) ∧
      e = c.position := by
  obtain ⟨q,f,-,hf,hnotes,hfirst⟩ := (lists_preorder root).exists_first hsome
  obtain ⟨hforms_f,hbelow⟩ := formsParameters_below hforms hf
  obtain ⟨i,j,c,hc,he,hleast⟩ := exists_holdsMisplaced hforms_f hbelow hnotes
  refine ⟨q ++ [i, j],c,⟨q,f,i,j,rfl,hf,hc⟩,?_,he⟩
  rintro - d ⟨q',g,k,l,rfl,hg,hd⟩ hbefore
  -- Another function may come before this one, be the same, stand in its body, or come behind it.
  rcases lt_trichotomy (q' : List Nat) q with hlt | rfl | hlt
  · obtain ⟨n,hn,hsilent⟩ := hfirst q' (Option.isSome_of_eq_some hg) hlt
    cases hg.symm.trans hn
    obtain ⟨hforms_g,hbelow_g⟩ := formsParameters_below hforms hg
    exact not_holdsMisplaced hforms_g hbelow_g hsilent hd
  · cases hf.symm.trans hg
    obtain ⟨rfl,hle⟩ := hleast k l d hd
    rcases hle.eq_or_lt with rfl | hlt
    · exact hbefore.ne rfl
    · exact hbefore.asymm (.append_left _ (.cons (.rel hlt)) q')
  · rcases Place.Before.above_or_apart hlt with ⟨m,r,rfl⟩ | hapart
    · rw [Node.at?_append, hf] at hg
      have hlt := parameters_before_body ((placed_of_isModule hmodule).at? hf) hforms_f hc hg
        hd.function
      rw [List.append_assoc] at hbefore
      exact hbefore.asymm (.append_left _ (.rel hlt) q)
    · exact hbefore.asymm (hapart _ _)

/-- A module within the limit of nesting is refused exactly if a parameter without a default stands
in it, before any star, behind one with a default; the error has the place of the first such
parameter in document order. -/
theorem ofTree_reports_first_misplaced (root : Node) (hheight : root.height ≤ Node.maxDepth)
    (hmodule : root.isModule) (hforms : root.preorder.all Node.formsParameters) :
    ((∃ e, ofTree root = .error e) ↔ ∃ p c, root.MisplacedAt p c) ∧
    ∀ e, ofTree root = .error e ↔ ∃ p c, root.MisplacedAt p c ∧
      (∀ q d, root.MisplacedAt q d → ¬q.Before p) ∧
      e = .misplacedParameter ⟨c.row + 1, c.column + 1⟩ := by
  have hdepth : root.tooDeep? = none := root.tooDeep?_eq_none_iff.mpr hheight
  simp only [ofTree, hdepth, misplaced?_eq hmodule]
  cases hfirst : root.preorder.findSome? misplacedOf with
  | none =>
    have hnone {p c} : ¬root.MisplacedAt p c := not_misplacedAt hforms hfirst
    simp [hnone]
  | some e =>
    obtain ⟨p,c,hp,hleast,rfl⟩ := exists_first_misplacedAt hmodule hforms hfirst
    refine ⟨⟨fun _ => ⟨p,c,hp⟩,fun _ => ⟨_,rfl⟩⟩,fun e => ⟨?_,?_⟩⟩
    · rintro ⟨⟩
      exact ⟨p,c,hp,hleast,rfl⟩
    · rintro ⟨q,d,hq,hleast',rfl⟩
      obtain rfl : p = q := by
        rcases lt_trichotomy (p : List Nat) q with hlt | heq | hlt
        · exact absurd hlt (hleast' p c hp)
        · exact heq
        · exact absurd hlt (hleast q d hq)
      cases (at?_of_misplacedAt hp).symm.trans (at?_of_misplacedAt hq)
      rfl

private def defaulted (name : String) (row column : Nat) : Node :=
  branch "default_parameter" "" none row column [leaf "identifier" name (some "name") row column,
    leaf "integer" "1" (some "value") row (column + 2)]

private def offendingModule : Node :=
  branch "module" "" none 0 0 [
    branch "class_definition" "" none 0 0 [leaf "identifier" "C" (some "name") 0 6,
      branch "block" "" (some "body") 1 4 [branch "decorated_definition" "" none 1 4 [
        branch "decorator" "" none 1 4 [leaf "identifier" "p" none 1 5],
        branch "function_definition" "" (some "definition") 2 4 [
          leaf "identifier" "f" (some "name") 2 8,
          branch "parameters" "" (some "parameters") 2 9 [leaf "identifier" "a" none 2 10,
            defaulted "b" 2 13, leaf "positional_separator" "/" none 2 18,
            leaf "comment" "# T" none 2 21,
            branch "typed_parameter" "" none 3 10 [leaf "identifier" "c" none 3 10,
              branch "type" "" (some "type") 3 13 [leaf "identifier" "T" none 3 13]],
            branch "list_splat_pattern" "" none 3 16 [leaf "identifier" "d" none 3 17],
            leaf "identifier" "e" none 3 20],
          branch "block" "" (some "body") 4 8 [branch "function_definition" "" none 4 8 [
            leaf "identifier" "g" (some "name") 4 12,
            branch "parameters" "" (some "parameters") 4 13 [defaulted "x" 4 14,
              leaf "identifier" "y" none 4 19],
            branch "block" "" (some "body") 4 23 [leaf "pass_statement" "pass" none 4 23]]]]]]],
    branch "function_definition" "" none 5 0 [leaf "identifier" "h" (some "name") 5 4,
      branch "parameters" "" (some "parameters") 5 5 [defaulted "z" 5 6,
        leaf "identifier" "w" none 5 11],
      branch "block" "" (some "body") 5 15 [leaf "pass_statement" "pass" none 5 15]]]

theorem ofTree_reports_first_misplaced_method : offendingModule.height ≤ Node.maxDepth ∧
    offendingModule.isModule ∧ offendingModule.preorder.all Node.formsParameters ∧
    ofTree offendingModule = .error (.misplacedParameter ⟨4, 11⟩) ∧
    ∃ p c, offendingModule.MisplacedAt p c ∧
      (∀ q d, offendingModule.MisplacedAt q d → ¬q.Before p) ∧ c.row = 3 ∧ c.column = 10 := by
  have hheight : offendingModule.height ≤ Node.maxDepth := by decide
  have hmodule : offendingModule.isModule := by decide
  have hforms : offendingModule.preorder.all Node.formsParameters := by decide
  have hnotes : Stmt.misplaced? (Stmt.ofBlock offendingModule) = some ⟨4, 11⟩ := by decide
  have herror : ofTree offendingModule = .error (.misplacedParameter ⟨4, 11⟩) := by
    simp only [ofTree, (Node.tooDeep?_eq_none_iff offendingModule).mpr hheight, hnotes]
  refine ⟨hheight,hmodule,hforms,herror,?_⟩
  obtain ⟨p,c,hc,hfirst,hposition⟩ :=
    ((ofTree_reports_first_misplaced offendingModule hheight hmodule hforms).2 _).mp herror
  exact ⟨p,c,hc,hfirst,by simpa [eq_comm] using hposition⟩

end Module

end DocSnapshot.Python
