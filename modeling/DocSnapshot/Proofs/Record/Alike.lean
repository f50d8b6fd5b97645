import DocSnapshot.Proofs.Python.Dumps

/-! Records that differ in lines and dumps only. Bodies that are the same once lines and dumps are
left out have such records. -/
namespace DocSnapshot.Record
open DocSnapshot.Python (Expr Parameter Parameters Stmt Target)

/-- Whether two texts are the same but for the dump of a node in front. -/
def SameText (s t : String) : Prop :=
  s = t ∨ ∃ (n m : Python.Node) (rest : String), s = n.dump ++ rest ∧ t = m.dump ++ rest

inductive Argument.Alike : Argument → Argument → Prop where
  | positional {a a' d d' : Option String} (name : String) (hasDefault : Bool)
      (typeHint : Option.Rel SameText a a') (default : Option.Rel SameText d d') :
      Alike (.positional name a hasDefault d) (.positional name a' hasDefault d')
  | keywordOnly {a a' d d' : Option String} (name : String) (hasDefault : Bool)
      (typeHint : Option.Rel SameText a a') (default : Option.Rel SameText d d') :
      Alike (.keywordOnly name a hasDefault d) (.keywordOnly name a' hasDefault d')
  | varPositional {a a' : Option String} (name : String) (typeHint : Option.Rel SameText a a') :
      Alike (.varPositional name a) (.varPositional name a')
  | varKeyword {a a' : Option String} (name : String) (typeHint : Option.Rel SameText a a') :
      Alike (.varKeyword name a) (.varKeyword name a')

structure Function.Alike (f g : Function) : Prop where
  name : g.name = f.name
  docstring : g.docstring = f.docstring
  arguments : List.Forall₂ Argument.Alike f.arguments g.arguments
  decorators : List.Forall₂ SameText f.decorators g.decorators
  isAsync : g.isAsync = f.isAsync
  isMethod : g.isMethod = f.isMethod
  returnType : Option.Rel SameText f.returnType g.returnType
  method : g.method = f.method

structure Property.Alike (p q : Property) : Prop where
  name : q.name = p.name
  docstring : q.docstring = p.docstring

structure Class.Alike (c d : Class) : Prop where
  name : d.name = c.name
  docstring : d.docstring = c.docstring
  bases : List.Forall₂ SameText c.bases d.bases
  decorators : List.Forall₂ SameText c.decorators d.decorators
  methods : List.Forall₂ Function.Alike c.methods d.methods
  properties : List.Forall₂ Property.Alike c.properties d.properties

structure Constant.Alike (c d : Constant) : Prop where
  name : d.name = c.name
  value : SameText c.value d.value

structure Structure.Alike (s t : Structure) : Prop where
  docstring : t.docstring = s.docstring
  imports : t.imports = s.imports
  classes : List.Forall₂ Class.Alike s.classes t.classes
  functions : List.Forall₂ Function.Alike s.functions t.functions
  constants : List.Forall₂ Constant.Alike s.constants t.constants

section Texts

theorem SameText.append {s t : String} (h : SameText s t) (rest : String) :
    SameText (s ++ rest) (t ++ rest) := by
  rcases h with rfl | ⟨n,m,rest',rfl,rfl⟩
  · exact .inl rfl
  · exact .inr ⟨n,m,rest' ++ rest,String.append_assoc,String.append_assoc⟩

theorem sameText_dump (n m : Python.Node) : SameText n.dump m.dump :=
  .inr ⟨n,m,"",String.append_empty.symm,String.append_empty.symm⟩

/-- A dump shows parentheses. -/
theorem paren_mem_dump (n : Python.Node) : '(' ∈ n.dump.toList := by
  cases n
  rw [Python.Node.dump]
  split <;> simp [String.toList_append]

/-- A word without parentheses is no dump, so texts that agree but for dumps are the word alike. -/
theorem SameText.eq_iff {s t word : String} (h : SameText s t) (hword : '(' ∉ word.toList) :
    t = word ↔ s = word := by
  have hdump (n : Python.Node) (rest : String) : n.dump ++ rest ≠ word := by
    rintro rfl
    rw [String.toList_append] at hword
    exact hword (List.mem_append_left _ (paren_mem_dump n))
  rcases h with rfl | ⟨n,m,rest,rfl,rfl⟩
  · rfl
  · exact iff_of_false (hdump m rest) (hdump n rest)

theorem contains_of_sameText {ss ts : List String} (h : List.Forall₂ SameText ss ts)
    (word : String) (hword : '(' ∉ word.toList) :
    ts.contains word = ss.contains word := by
  induction h with
  | nil => rfl
  | cons hhead _ ih =>
    have hiff := hhead.eq_iff hword
    rw [List.contains_cons, List.contains_cons, ih, Bool.eq_iff_iff]
    simp only [Bool.or_eq_true, beq_iff_eq]
    rw [eq_comm, hiff, eq_comm]

end Texts

section Expressions

structure SameExpr (e e' : Expr) : Prop where
  bare : e'.bare = e.bare
  left : e.Dumped
  right : e'.Dumped

private theorem exists_of_bare_attribute {e value : Expr} {attr : String}
    (h : e.bare = .attribute value attr) : ∃ value', e = .attribute value' attr ∧
      value'.bare = value := by
  cases e <;> simp_all [Expr.bare]

private def isDump : Expr → Bool
  | .list .. | .dict _ | .tuple .. | .other _ => true
  | .name _ | .attribute .. | .constant _ => false

private theorem isDump_bare (e : Expr) : isDump e.bare = isDump e := by
  cases e <;> rfl

private theorem exists_dump {e : Expr} (h : e.Dumped) (hdump : isDump e = true) :
    ∃ n : Python.Node, resolveName e = n.dump := by
  cases e <;> simp_all [isDump, Expr.Dumped, resolveName]

private theorem sameText_of_isDump {e e' : Expr} (h : SameExpr e e') (hdump : isDump e = true) :
    SameText (resolveName e) (resolveName e') := by
  have hdump' : isDump e' = true := by rw [← isDump_bare, h.bare, isDump_bare, hdump]
  obtain ⟨n,hn⟩ := exists_dump h.left hdump
  obtain ⟨m,hm⟩ := exists_dump h.right hdump'
  rw [hn, hm]
  exact sameText_dump n m

theorem resolveName_alike : (e e' : Expr) → SameExpr e e' →
    SameText (resolveName e) (resolveName e')
  | .name id, e', h => by
    have hbare := h.bare
    cases e' <;> simp_all [Expr.bare, resolveName, SameText]
  | .attribute value attr, e', h => by
    obtain ⟨value',rfl,hvalue⟩ := exists_of_bare_attribute (h.bare.trans (by rw [Expr.bare]))
    have hrec := resolveName_alike value value' ⟨hvalue,h.left,h.right⟩
    rw [resolveName, resolveName]
    exact (hrec.append ".").append attr
  | .constant l, e', h => by
    have hbare := h.bare
    cases e' <;> simp_all [Expr.bare, resolveName, SameText]
  | .list _ _, _, h | .dict _, _, h | .tuple _ _, _, h | .other _, _, h => sameText_of_isDump h rfl

theorem valueRepr_alike (e e' : Expr) (h : SameExpr e e') :
    SameText (valueRepr e) (valueRepr e') := by
  have hname := resolveName_alike e e' h
  have hbare := h.bare
  cases e <;> cases e' <;> simp_all [Expr.bare, valueRepr, SameText]

end Expressions

section Lists

variable {α β : Type} {f : α → β} {S : α → α → Prop}

private theorem forall₂_of_map_eq {xs ys : List α} (h : ys.map f = xs.map f)
    (hS : ∀ x ∈ xs, ∀ y ∈ ys, f y = f x → S x y) : List.Forall₂ S xs ys := by
  induction xs generalizing ys with
  | nil =>
    rw [List.map_nil, List.map_eq_nil_iff] at h
    rw [h]
    exact .nil
  | cons x xs ih =>
    cases ys with
    | nil => simp at h
    | cons y ys =>
      rw [List.map_cons, List.map_cons, List.cons.injEq] at h
      refine .cons (hS x List.mem_cons_self y List.mem_cons_self h.1) (ih h.2 ?_)
      exact fun a ha b hb => hS a (List.mem_cons_of_mem _ ha) b (List.mem_cons_of_mem _ hb)

private theorem forall₂_map {γ δ : Type} {T : γ → δ → Prop} {g : α → γ} {g' : β → δ} {xs : List α}
    {ys : List β} (h : List.Forall₂ (fun x y => T (g x) (g' y)) xs ys) :
    List.Forall₂ T (xs.map g) (ys.map g') :=
  List.forall₂_map_left_iff.mpr (List.forall₂_map_right_iff.mpr h)

private theorem rel_of_map_eq {x y : Option α} (h : y.map f = x.map f)
    (hS : ∀ a ∈ x, ∀ b ∈ y, f b = f a → S a b) : Option.Rel S x y := by
  cases x with
  | none =>
    rw [Option.map_none, Option.map_eq_none_iff] at h
    rw [h]
    exact .none
  | some a =>
    cases y with
    | none => simp at h
    | some b => exact .some (hS a rfl b rfl (by simpa using h))

private theorem rel_map {γ δ : Type} {R : α → β → Prop} {T : γ → δ → Prop} {g : α → γ}
    {g' : β → δ} {x : Option α} {y : Option β} (h : Option.Rel R x y)
    (hT : ∀ a b, R a b → T (g a) (g' b)) : Option.Rel T (x.map g) (y.map g') := by
  cases h with
  | none => exact .none
  | some hab => exact .some (hT _ _ hab)

private theorem rel_toList {R : α → β → Prop} {x : Option α} {y : Option β}
    (h : Option.Rel R x y) : List.Forall₂ R x.toList y.toList := by
  cases h with
  | none => exact .nil
  | some hab => exact .cons hab .nil

private theorem rel_getElem? {R : α → β → Prop} {xs : List α} {ys : List β}
    (h : List.Forall₂ R xs ys) (i : Nat) : Option.Rel R xs[i]? ys[i]? := by
  induction h generalizing i with
  | nil => exact .none
  | cons hhead _ ih =>
    cases i with
    | zero => exact .some hhead
    | succ i => exact ih i

private theorem isSome_of_rel {R : α → β → Prop} {x : Option α} {y : Option β}
    (h : Option.Rel R x y) : y.isSome = x.isSome := by
  cases h <;> rfl

end Lists

section Arguments

theorem sameExprs_of_bare {es es' : List Expr} (h : es'.map Expr.bare = es.map Expr.bare)
    (hes : ∀ e ∈ es, e.Dumped) (hes' : ∀ e ∈ es', e.Dumped) : List.Forall₂ SameExpr es es' :=
  forall₂_of_map_eq h fun e he e' he' hbare => ⟨hbare,hes e he,hes' e' he'⟩

theorem sameExpr?_of_bare {e e' : Option Expr} (h : e'.map Expr.bare = e.map Expr.bare)
    (he : ∀ x ∈ e, x.Dumped) (he' : ∀ x ∈ e', x.Dumped) : Option.Rel SameExpr e e' :=
  rel_of_map_eq h fun x hx x' hx' hbare => ⟨hbare,he x hx,he' x' hx'⟩

theorem names_alike {es es' : List Expr} (h : es'.map Expr.bare = es.map Expr.bare)
    (hes : ∀ e ∈ es, e.Dumped) (hes' : ∀ e ∈ es', e.Dumped) :
    List.Forall₂ SameText (es.map resolveName) (es'.map resolveName) :=
  forall₂_map ((sameExprs_of_bare h hes hes').imp resolveName_alike)

private structure SameParameter (p q : Parameter) : Prop where
  name : q.name = p.name
  typeHint : Option.Rel SameText (p.typeHint.map resolveName) (q.typeHint.map resolveName)

private theorem sameParameter_of_bare {p q : Parameter} (h : q.bare = p.bare) (hp : p.Dumped)
    (hq : q.Dumped) : SameParameter p q := by
  rw [Parameter.bare, Parameter.bare, Parameter.mk.injEq] at h
  exact ⟨h.1,rel_map (sameExpr?_of_bare h.2 hp hq) resolveName_alike⟩

private theorem positionalArguments_alike (first : Nat) {ds ds' : List Expr}
    {ps qs : List Parameter} (hdefaults : List.Forall₂ SameExpr ds ds')
    (h : List.Forall₂ SameParameter ps qs) (i : Nat) :
    List.Forall₂ Argument.Alike (positionalArguments first ds ps i)
      (positionalArguments first ds' qs i) := by
  induction h generalizing i with
  | nil => exact .nil
  | @cons p q _ _ hhead _ ih =>
    have hdefault : Option.Rel SameExpr (if first ≤ i then ds[i - first]? else none)
        (if first ≤ i then ds'[i - first]? else none) := by
      split
      · exact rel_getElem? hdefaults _
      · exact .none
    rw [positionalArguments, positionalArguments, hhead.name, isSome_of_rel hdefault]
    exact .cons (.positional _ _ hhead.typeHint (rel_map hdefault valueRepr_alike)) (ih (i + 1))

theorem Argument.ofParameters_alike {ps qs : Parameters} (h : qs.bare = ps.bare)
    (hps : ps.Dumped) (hqs : qs.Dumped) (hasReceiver : Bool) :
    List.Forall₂ Argument.Alike (ofParameters ps hasReceiver) (ofParameters qs hasReceiver) := by
  rw [Parameters.bare, Parameters.bare, Parameters.mk.injEq] at h
  obtain ⟨hpositional,hdefaults,hstar,hkeywords,hdoubleStar,-⟩ := h
  have hpositional : List.Forall₂ SameParameter ps.positional qs.positional :=
    forall₂_of_map_eq hpositional fun p hp q hq hbare =>
      sameParameter_of_bare hbare (hps.positional p hp) (hqs.positional q hq)
  have hdefaults := sameExprs_of_bare hdefaults hps.defaults hqs.defaults
  have hstar : Option.Rel SameParameter ps.varPositional qs.varPositional :=
    rel_of_map_eq hstar fun p hp q hq hbare =>
      sameParameter_of_bare hbare (hps.varPositional p hp) (hqs.varPositional q hq)
  have hdoubleStar : Option.Rel SameParameter ps.varKeyword qs.varKeyword :=
    rel_of_map_eq hdoubleStar fun p hp q hq hbare =>
      sameParameter_of_bare hbare (hps.varKeyword p hp) (hqs.varKeyword q hq)
  have hfirst : qs.positional.length - qs.defaults.length =
      ps.positional.length - ps.defaults.length := by
    rw [hpositional.length_eq, hdefaults.length_eq]
  have hleading := positionalArguments_alike (ps.positional.length - ps.defaults.length) hdefaults
    hpositional 0
  simp only [ofParameters, hfirst]
  refine List.rel_append (List.rel_append (List.rel_append ?_ ?_) ?_) ?_
  · cases hasReceiver with
    | true => exact List.forall₂_drop 1 hleading
    | false => exact hleading
  · refine rel_toList (rel_map hstar fun p q hpq => ?_)
    rw [hpq.name]
    exact .varPositional _ hpq.typeHint
  · refine forall₂_map (forall₂_of_map_eq hkeywords fun p hp q hq hbare => ?_)
    rw [Prod.mk.injEq] at hbare
    obtain ⟨hp,hd⟩ := hps.keywordOnly p hp
    obtain ⟨hq,hd'⟩ := hqs.keywordOnly q hq
    have hparameter := sameParameter_of_bare hbare.1 hp hq
    have hdefault := sameExpr?_of_bare hbare.2 hd hd'
    rw [hparameter.name, isSome_of_rel hdefault]
    exact .keywordOnly _ _ hparameter.typeHint (rel_map hdefault valueRepr_alike)
  · refine rel_toList (rel_map hdoubleStar fun p q hpq => ?_)
    rw [hpq.name]
    exact .varKeyword _ hpq.typeHint

end Arguments

section Definitions

variable {lax : Bool}

theorem docstring?_bareBody (body : List Stmt) :
    docstring? (Stmt.bareBody lax body) = docstring? body := by
  cases body with
  | nil => rfl
  | cons s rest =>
    cases s with
    | expr value =>
      cases value with
      | constant l => cases l <;> rfl
      | _ => rfl
    | _ => rfl

private theorem isProperty_bare (e : Expr) : isProperty e.bare = isProperty e := by
  cases e <;> rfl

/-- Functions that are the same once lines and dumps are left out have records alike. -/
theorem Function.ofDefinition_alike {f g : Python.Function} {body body' : List Stmt}
    (h : g.bare = f.bare) (hbody : Stmt.bareBody lax body' = Stmt.bareBody lax body)
    (hf : f.Dumped) (hg : g.Dumped) (isMethod : Bool) :
    (Function.ofDefinition f body isMethod).Alike (Function.ofDefinition g body' isMethod) := by
  rw [Python.Function.bare, Python.Function.bare, Python.Function.mk.injEq] at h
  obtain ⟨hname,-,hdecorators,hasync,hparameters,hreturns⟩ := h
  have hnames := names_alike hdecorators hf.decorators hg.decorators
  have hclass := contains_of_sameText hnames "classmethod" (by decide)
  have hstatic := contains_of_sameText hnames "staticmethod" (by decide)
  have hdocstring : docstring? body' = docstring? body := by
    rw [← @docstring?_bareBody lax body', hbody, docstring?_bareBody]
  refine ⟨hname,hdocstring,?_,hnames,hasync,rfl,?_,?_⟩
  · simp only [ofDefinition, hstatic]
    exact Argument.ofParameters_alike hparameters hf.parameters hg.parameters _
  · exact rel_map (sameExpr?_of_bare hreturns hf.returns hg.returns) resolveName_alike
  · simp only [ofDefinition, hclass, hstatic, hname]

private def functionOf? : Stmt → Option (Python.Function × List Stmt)
  | .functionDef f body => some (f, body)
  | _ => none

private def classOf? : Stmt → Option (Python.Class × List Stmt)
  | .classDef c body => some (c, body)
  | _ => none

private def assignmentOf? : Stmt → Option (Nat × List Target × Expr)
  | .assign line targets value => some (line, targets, value)
  | _ => none

private theorem picks_alike {γ δ : Type} {pick : Stmt → Option γ} {k : γ → δ} {S : γ → γ → Prop}
    {xs ys : List Stmt} (h : (ys.filterMap pick).map k = (xs.filterMap pick).map k)
    (hxs : ∀ s ∈ xs, s.Dumped) (hys : ∀ s ∈ ys, s.Dumped)
    (hS : ∀ s t p q, s.Dumped → t.Dumped → pick s = some p → pick t = some q → k q = k p → S p q) :
    List.Forall₂ S (xs.filterMap pick) (ys.filterMap pick) := by
  refine forall₂_of_map_eq h fun p hp q hq hpq => ?_
  obtain ⟨s,hs,hsp⟩ := List.mem_filterMap.mp hp
  obtain ⟨t,ht,htq⟩ := List.mem_filterMap.mp hq
  exact hS s t p q (hxs s hs) (hys t ht) hsp htq hpq

private theorem functions_alike {body body' : List Stmt}
    (h : Stmt.bareBody lax body' = Stmt.bareBody lax body) (hleft : Stmt.DumpedAll body)
    (hright : Stmt.DumpedAll body') (isMethod : Bool) :
    List.Forall₂ (fun p q => (Function.ofDefinition p.1 p.2 isMethod).Alike
        (Function.ofDefinition q.1 q.2 isMethod) ∧
        q.1.decorators.any isProperty = p.1.decorators.any isProperty)
      (body.filterMap functionOf?) (body'.filterMap functionOf?) := by
  have hpick (s : Stmt) : functionOf? (s.bare lax) =
      (functionOf? s).map fun p => (p.1.bare, Stmt.bareBody lax p.2) := by
    cases s <;> rfl
  have hfunction {s : Stmt} {p : Python.Function × List Stmt} (hs : s.Dumped)
      (hp : functionOf? s = some p) : p.1.Dumped := by
    cases s <;> simp only [functionOf?, Option.some.injEq, reduceCtorEq] at hp
    exact hp ▸ hs.1
  have hany (ds : List Expr) : (ds.map Expr.bare).any isProperty = ds.any isProperty := by
    rw [List.any_map]
    congr 1
    funext e
    exact isProperty_bare e
  refine picks_alike (k := fun p => (p.1.bare, Stmt.bareBody lax p.2)) ?_
    ((Stmt.dumpedAll_iff _).mp hleft) ((Stmt.dumpedAll_iff _).mp hright)
    fun s t p q hs ht hp hq hpq => ?_
  · rw [← Stmt.filterMap_bareBody rfl hpick, h, Stmt.filterMap_bareBody rfl hpick]
  · rw [Prod.mk.injEq] at hpq
    refine ⟨Function.ofDefinition_alike hpq.1 hpq.2 (hfunction hs hp) (hfunction ht hq) isMethod,?_⟩
    have hdecorators : q.1.decorators.map Expr.bare = p.1.decorators.map Expr.bare :=
      congrArg Python.Function.decorators hpq.1
    rw [← hany, hdecorators, hany]

private theorem Class.methodsOf_eq (body : List Stmt) : Class.methodsOf body =
    (body.filterMap functionOf?).map fun p =>
      (Function.ofDefinition p.1 p.2 true, p.1.decorators) := by
  rw [methodsOf, List.map_filterMap]
  exact List.filterMap_congr fun s _ => by cases s <;> rfl

/-- Classes that are the same once lines and dumps are left out have records alike. -/
theorem Class.ofDefinition_alike {c d : Python.Class} {body body' : List Stmt}
    (h : d.bare = c.bare) (hbody : Stmt.bareBody lax body' = Stmt.bareBody lax body)
    (hc : c.Dumped) (hd : d.Dumped) (hleft : Stmt.DumpedAll body)
    (hright : Stmt.DumpedAll body') :
    (Class.ofDefinition c body).Alike (Class.ofDefinition d body') := by
  rw [Python.Class.bare, Python.Class.bare, Python.Class.mk.injEq] at h
  obtain ⟨hname,-,hdecorators,hbases⟩ := h
  have hdocstring : docstring? body' = docstring? body := by
    rw [← @docstring?_bareBody lax body', hbody, docstring?_bareBody]
  have hmethods : List.Forall₂
      (fun p q => p.1.Alike q.1 ∧ q.2.any isProperty = p.2.any isProperty)
      (methodsOf body) (methodsOf body') := by
    rw [methodsOf_eq, methodsOf_eq]
    exact forall₂_map (functions_alike hbody hleft hright true)
  refine ⟨hname,hdocstring,?_,?_,?_,?_⟩
  · exact names_alike hbases hc.bases hd.bases
  · exact names_alike hdecorators hc.decorators hd.decorators
  · exact forall₂_map (hmethods.imp fun _ _ hpq => hpq.1)
  · refine forall₂_map ((List.rel_filter (fun _ _ hpq => ?_) hmethods).imp fun _ _ hpq => ?_)
    · simp only [hpq.2]
    · exact ⟨hpq.1.name,hpq.1.docstring⟩

private theorem classes_alike {body body' : List Stmt}
    (h : Stmt.bareBody lax body' = Stmt.bareBody lax body) (hleft : Stmt.DumpedAll body)
    (hright : Stmt.DumpedAll body') :
    List.Forall₂ (fun p q => (Class.ofDefinition p.1 p.2).Alike (Class.ofDefinition q.1 q.2))
      ((Stmt.walkAll body).filterMap classOf?) ((Stmt.walkAll body').filterMap classOf?) := by
  have hpick (s : Stmt) : classOf? (s.bare lax) =
      (classOf? s).map fun p => (p.1.bare, Stmt.bareBody lax p.2) := by
    cases s <;> rfl
  have hclass {s : Stmt} {p : Python.Class × List Stmt} (hs : s.Dumped)
      (hp : classOf? s = some p) : p.1.Dumped ∧ Stmt.DumpedAll p.2 := by
    cases s <;> simp only [classOf?, Option.some.injEq, reduceCtorEq] at hp
    exact hp ▸ hs
  refine picks_alike (k := fun p => (p.1.bare, Stmt.bareBody lax p.2)) ?_ (hleft.walkAll body)
    (hright.walkAll body') fun s t p q hs ht hp hq hpq => ?_
  · rw [← Stmt.filterMap_walkAll_bareBody rfl hpick, h, Stmt.filterMap_walkAll_bareBody rfl hpick]
  · rw [Prod.mk.injEq] at hpq
    obtain ⟨hc,hleft⟩ := hclass hs hp
    obtain ⟨hd,hright⟩ := hclass ht hq
    exact Class.ofDefinition_alike hpq.1 hpq.2 hc hd hleft hright

end Definitions

section Constants

private theorem elements?_alike {v v' : Expr} (h : SameExpr v v') :
    Option.Rel (List.Forall₂ SameExpr) (elements? v) (elements? v') := by
  obtain ⟨hbare,hleft,hright⟩ := h
  cases v <;> cases v' <;>
    simp only [Expr.bare, reduceCtorEq, Expr.list.injEq, Expr.tuple.injEq, Expr.bareAll_eq,
      and_true] at hbare
  case list es _ es' _ =>
    exact .some (sameExprs_of_bare hbare ((Expr.dumpedAll_iff es).mp hleft.1)
      ((Expr.dumpedAll_iff es').mp hright.1))
  case tuple es _ es' _ =>
    exact .some (sameExprs_of_bare hbare ((Expr.dumpedAll_iff es).mp hleft.1)
      ((Expr.dumpedAll_iff es').mp hright.1))
  all_goals exact .none

private theorem constantsOfEach_nil (line : Nat) (vs : List Expr) :
    constantsOfEach line vs [] = [] := by
  cases vs <;> rfl

mutual
theorem constantsOf_alike (line line' : Nat) {v v' : Expr} (h : SameExpr v v') :
    (t : Target) → List.Forall₂ Constant.Alike (constantsOf line v t) (constantsOf line' v' t)
  | .name id => by
    rw [constantsOf, constantsOf]
    split
    · exact .cons ⟨rfl,valueRepr_alike v v' h⟩ .nil
    · exact .nil
  | .sequence items => by
    have hall := constantsOfAll_alike line line' h items
    have helements := elements?_alike h
    rw [constantsOf, constantsOf]
    generalize elements? v = es, elements? v' = es' at helements ⊢
    cases helements with
    | none => exact hall
    | some hes =>
      simp only [← hes.length_eq]
      split
      · exact constantsOfEach_alike line line' hes items
      · exact hall
  | .other => .nil

theorem constantsOfEach_alike (line line' : Nat) : {vs vs' : List Expr} →
    List.Forall₂ SameExpr vs vs' → (ts : List Target) →
      List.Forall₂ Constant.Alike (constantsOfEach line vs ts) (constantsOfEach line' vs' ts)
  | _, _, _, [] => by
    rw [constantsOfEach_nil, constantsOfEach_nil]
    exact .nil
  | _, _, .nil, _ :: _ => .nil
  | _, _, .cons hhead hrest, t :: ts => by
    rw [constantsOfEach, constantsOfEach]
    exact List.rel_append (constantsOf_alike line line' hhead t)
      (constantsOfEach_alike line line' hrest ts)

theorem constantsOfAll_alike (line line' : Nat) {v v' : Expr} (h : SameExpr v v') :
    (ts : List Target) →
      List.Forall₂ Constant.Alike (constantsOfAll line v ts) (constantsOfAll line' v' ts)
  | [] => .nil
  | t :: ts => by
    rw [constantsOfAll, constantsOfAll]
    exact List.rel_append (constantsOf_alike line line' h t) (constantsOfAll_alike line line' h ts)
end

private theorem assignments_alike {lax : Bool} {body body' : List Stmt}
    (h : Stmt.bareBody lax body' = Stmt.bareBody lax body) (hleft : Stmt.DumpedAll body)
    (hright : Stmt.DumpedAll body') :
    List.Forall₂ (fun p q => q.2.1 = p.2.1 ∧ SameExpr p.2.2 q.2.2)
      (body.filterMap assignmentOf?) (body'.filterMap assignmentOf?) := by
  have hpick (s : Stmt) : assignmentOf? (s.bare lax) =
      (assignmentOf? s).map fun p => (0, p.2.1, p.2.2.bare) := by
    cases s <;> rfl
  have hvalue {s : Stmt} {p : Nat × List Target × Expr} (hs : s.Dumped)
      (hp : assignmentOf? s = some p) : p.2.2.Dumped := by
    cases s <;> simp only [assignmentOf?, Option.some.injEq, reduceCtorEq] at hp
    exact hp ▸ hs
  refine picks_alike (k := fun p => (0, p.2.1, p.2.2.bare)) ?_
    ((Stmt.dumpedAll_iff _).mp hleft) ((Stmt.dumpedAll_iff _).mp hright)
    fun s t p q hs ht hp hq hpq => ?_
  · rw [← Stmt.filterMap_bareBody rfl hpick, h, Stmt.filterMap_bareBody rfl hpick]
  · rw [Prod.mk.injEq, Prod.mk.injEq] at hpq
    exact ⟨hpq.2.1,hpq.2.2,hvalue hs hp,hvalue ht hq⟩

end Constants

/-- Bodies that are the same once lines and dumps are left out have structures alike. -/
theorem Structure.ofBody_alike {lax : Bool} {body body' : List Stmt}
    (h : Stmt.bareBody lax body' = Stmt.bareBody lax body) (hleft : Stmt.DumpedAll body)
    (hright : Stmt.DumpedAll body') : (ofBody body).Alike (ofBody body') where
  docstring := by
    rw [ofBody, ofBody, ← @docstring?_bareBody lax body', h, docstring?_bareBody]
  imports := by
    have himports (body : List Stmt) : (Stmt.walkAll (Stmt.bareBody lax body)).flatMap importsOf =
        (Stmt.walkAll body).flatMap importsOf :=
      Stmt.flatMap_walkAll_bareBody rfl body fun r _ => by cases r <;> rfl
    rw [ofBody, ofBody, ← himports body', h, himports]
  classes := by
    have hclasses (body : List Stmt) : (ofBody body).classes =
        ((Stmt.walkAll body).filterMap classOf?).map fun p => Class.ofDefinition p.1 p.2 := by
      rw [List.map_filterMap]
      exact List.filterMap_congr fun s _ => by cases s <;> rfl
    rw [hclasses, hclasses]
    exact forall₂_map (classes_alike h hleft hright)
  functions := by
    have hfunctions (body : List Stmt) : (ofBody body).functions =
        (body.filterMap functionOf?).map fun p => Function.ofDefinition p.1 p.2 false := by
      rw [List.map_filterMap]
      exact List.filterMap_congr fun s _ => by cases s <;> rfl
    rw [hfunctions, hfunctions]
    exact forall₂_map ((functions_alike h hleft hright false).imp fun _ _ hpq => hpq.1)
  constants := by
    have hconstants (body : List Stmt) : (ofBody body).constants =
        (body.filterMap assignmentOf?).flatMap fun p => p.2.1.flatMap (constantsOf p.1 p.2.2) := by
      rw [List.filterMap_eq_flatMap_toList, List.flatMap_assoc]
      exact List.flatMap_congr fun s _ => by cases s <;> simp [assignmentOf?]
    rw [hconstants, hconstants]
    refine List.rel_flatMap (assignments_alike h hleft hright) fun p q hpq => ?_
    have htargets : List.Forall₂ Eq p.2.1 p.2.1 := List.forall₂_refl _
    rw [hpq.1]
    refine List.rel_flatMap htargets ?_
    rintro t _ rfl
    exact constantsOf_alike p.1 q.1 hpq.2 t

end DocSnapshot.Record
