import DocSnapshot.Record.Extraction

/-! Defaults are kept apart from the parameters they belong to and matched again from the right.
The argument records of a parameter list show every parameter with the default of its own node. -/
namespace DocSnapshot.Python.Node

def pattern? (c : Node) : Option Node :=
  if c.kind = "typed_parameter" then c.parts.head? else some c

def isStar (c : Node) : Bool := c.pattern?.any (·.kind = "list_splat_pattern")

def isDoubleStar (c : Node) : Bool := c.pattern?.any (·.kind = "dictionary_splat_pattern")

/-- Whether parameters behind a node are given by keyword only. -/
def endsPositional (c : Node) : Bool := c.isStar || c.kind = "keyword_separator"

def hasDefaultKind (c : Node) : Bool :=
  c.kind = "default_parameter" || c.kind = "typed_default_parameter"

/-- Whether a node is a parameter that takes one argument. -/
def isPlain (c : Node) : Bool :=
  c.kind = "identifier" || c.hasDefaultKind ||
    c.kind = "typed_parameter" && c.pattern?.isSome && !c.isStar && !c.isDoubleStar

def plainName (c : Node) : String :=
  if c.hasDefaultKind then ((c.child? "name").map text).getD ""
  else (c.pattern?.map text).getD ""

def collectingName (c : Node) : String := (c.pattern?.map Parameters.splatName).getD ""

def typeNode? (c : Node) : Option Node :=
  if c.kind = "typed_parameter" || c.hasDefaultKind then c.child? "type" else none

def valueNode? (c : Node) : Option Node := if c.hasDefaultKind then c.child? "value" else none

def typeText? (c : Node) : Option String :=
  c.typeNode?.map fun t => Record.resolveName (Expr.ofNode t)

def valueText? (c : Node) : Option String :=
  c.valueNode?.map fun v => Record.valueRepr (Expr.ofNode v)

end DocSnapshot.Python.Node

namespace DocSnapshot.Record
open DocSnapshot.Python (Expr Parameter Parameters)
open DocSnapshot.Python.Node (pattern? isStar isDoubleStar endsPositional hasDefaultKind isPlain
  plainName collectingName typeNode? valueNode? typeText? valueText?)
open DocSnapshot.Python.Parameters (add Entry)

namespace Argument

def positionalOf (c : Python.Node) : Argument :=
  .positional c.plainName c.typeText? c.valueNode?.isSome c.valueText?

def keywordOnlyOf (c : Python.Node) : Argument :=
  .keywordOnly c.plainName c.typeText? c.valueNode?.isSome c.valueText?

def varPositionalOf (c : Python.Node) : Argument :=
  .varPositional ("*" ++ c.collectingName) c.typeText?

def varKeywordOf (c : Python.Node) : Argument := .varKeyword ("**" ++ c.collectingName) c.typeText?

end Argument

def paramOf (c : Python.Node) : Parameter := ⟨c.plainName, c.typeNode?.map Expr.ofNode⟩
def collectedBy (c : Python.Node) : Parameter :=
  ⟨c.collectingName, c.typeNode?.map Expr.ofNode⟩

private def plains (cs : List Python.Node) : List (Parameter × Option Expr) :=
  (cs.filter isPlain).map fun c => (paramOf c, c.valueNode?.map Expr.ofNode)

/-- What the list of parameters takes a node for. -/
theorem entry_eq (c : Python.Node) : Entry.ofNode c =
    if c.isPlain then .plain (paramOf c) (c.valueNode?.map Expr.ofNode) c.position
    else if c.isStar then .star (collectedBy c)
    else if c.isDoubleStar then .doubleStar (collectedBy c)
    else if c.kind = "keyword_separator" then .keywordMark
    else .nothing := by
  unfold Entry.ofNode
  split
  case h_2 hk =>
    unfold Entry.ofTyped
    cases hp : c.parts with
    | nil => simp [isPlain, isStar, isDoubleStar, hasDefaultKind,
        pattern?, hk, hp]
    | cons inner rest =>
      by_cases h1 : inner.kind = "list_splat_pattern"
      · simp [isPlain, isStar, isDoubleStar, hasDefaultKind, pattern?,
          collectedBy, collectingName, typeNode?, hk, hp, h1]
      · by_cases h2 : inner.kind = "dictionary_splat_pattern" <;>
          simp [isPlain, isStar, isDoubleStar, hasDefaultKind, pattern?,
            collectedBy, collectingName, paramOf, plainName, typeNode?,
            valueNode?, hk, hp, h1, h2]
  all_goals
    rename_i hk
    simp_all [isPlain, isStar, isDoubleStar, hasDefaultKind, pattern?,
      collectedBy, collectingName, paramOf, plainName, typeNode?, valueNode?,
      Entry.ofDefault]

theorem isStar_of_isPlain {c : Python.Node} (h : c.isPlain) : c.endsPositional = false ∧
    c.isDoubleStar = false := by
  simp only [isPlain, hasDefaultKind, Bool.or_eq_true, decide_eq_true_eq,
    Bool.and_eq_true, Bool.not_eq_true'] at h
  rcases h with (h | h | h) | ⟨⟨⟨h,-⟩,hs⟩,hd⟩
  · simp [endsPositional, isStar, isDoubleStar, pattern?, h]
  · simp [endsPositional, isStar, isDoubleStar, pattern?, h]
  · simp [endsPositional, isStar, isDoubleStar, pattern?, h]
  · simp [endsPositional, hs, hd, h]

private theorem isDoubleStar_of_isStar {c : Python.Node} (h : c.endsPositional) :
    c.isDoubleStar = false := by
  by_cases hk : c.kind = "keyword_separator"
  · simp [isDoubleStar, pattern?, hk]
  · have hs : c.isStar := by simpa [endsPositional, hk] using h
    revert hs
    simp only [isStar, isDoubleStar]
    cases c.pattern? with
    | none => simp
    | some q => intro hq; simp_all

private def lastOf (p : Python.Node → Bool) (cs : List Python.Node) (old : Option Parameter) :
    Option Parameter :=
  ((cs.filter p).map collectedBy).getLast?.or old

private theorem lastOf_cons (p : Python.Node → Bool) (c : Python.Node) (cs : List Python.Node)
    (old : Option Parameter) :
    lastOf p (c :: cs) old = lastOf p cs (if p c then some (collectedBy c) else old) := by
  unfold lastOf
  by_cases h : p c
  · cases hl : ((cs.filter p).map collectedBy).getLast? <;> simp [h, hl, List.getLast?_cons]
  · simp [h]

private theorem foldl_add_keywordOnly (cs : List Python.Node) (ps : Parameters) :
    (cs.map Entry.ofNode).foldl add (ps, true) =
      ({ ps with
          keywordOnly := ps.keywordOnly ++ plains cs
          varPositional := lastOf isStar cs ps.varPositional
          varKeyword := lastOf isDoubleStar cs ps.varKeyword }, true) := by
  induction cs generalizing ps with
  | nil => simp [plains, lastOf]
  | cons c cs ih =>
    rw [List.map_cons, List.foldl_cons, entry_eq, lastOf_cons, lastOf_cons]
    by_cases hp : c.isPlain
    · obtain ⟨hs,hd⟩ := isStar_of_isPlain hp
      have hs : c.isStar = false := by simp_all [endsPositional]
      simp [hp, hs, hd, add, ih, plains]
    · by_cases hs : c.isStar
      · have hd := isDoubleStar_of_isStar (c := c) (by simp [endsPositional, hs])
        simp [hp, hs, hd, add, ih, plains]
      · by_cases hd : c.isDoubleStar
        · simp [hp, hs, hd, add, ih, plains]
        · by_cases hk : c.kind = "keyword_separator" <;> simp [hp, hs, hd, hk, add, ih, plains]

private def DefaultsLast (pairs : List (Parameter × Option Expr)) : Prop :=
  ∃ a b, pairs = a ++ b ∧ (∀ x ∈ a, x.2 = none) ∧ ∀ x ∈ b, x.2.isSome

private structure Split (ps : Parameters) (pairs : List (Parameter × Option Expr)) : Prop where
  positional : ps.positional = pairs.map (·.1)
  defaults : ps.defaults = pairs.filterMap (·.2)
  aligned : ps.misplaced = none → DefaultsLast pairs

private theorem Split.addPositional {ps : Parameters} {pairs : List (Parameter × Option Expr)}
    (h : Split ps pairs) (p : Parameter) (d : Option Expr) (position : Python.Position) :
    Split (ps.addPositional p d position) (pairs ++ [(p, d)]) := by
  cases d with
  | some d =>
    refine ⟨by simp [Parameters.addPositional, h.positional],
      by simp [Parameters.addPositional, h.defaults],?_⟩
    intro hm
    obtain ⟨a,b,rfl,ha,hb⟩ := h.aligned hm
    refine ⟨a,b ++ [(p,some d)],by simp,ha,?_⟩
    intro x hx
    rcases List.mem_append.mp hx with hx | hx
    · exact hb x hx
    · simp [List.mem_singleton.mp hx]
  | none =>
    refine ⟨by simp [Parameters.addPositional, h.positional],
      by simp [Parameters.addPositional, h.defaults],?_⟩
    intro hm
    have hnone : ∀ x ∈ pairs, x.2 = none := by
      cases he : ps.defaults with
      | nil => simpa [h.defaults] using he
      | cons d ds => simp [Parameters.addPositional, he] at hm
    exact ⟨pairs ++ [(p,none)],[],by simp,by simpa [or_imp, forall_and] using hnone,by simp⟩

private theorem foldl_add_positional (cs : List Python.Node)
    (hcs : ∀ c ∈ cs, c.endsPositional = false)
    (ps : Parameters) (pairs : List (Parameter × Option Expr)) (h : Split ps pairs) :
    ∃ qs, (cs.map Entry.ofNode).foldl add (ps, false) = (qs, false) ∧
      Split qs (pairs ++ plains cs) ∧ qs.keywordOnly = ps.keywordOnly ∧
      qs.varPositional = ps.varPositional ∧
      qs.varKeyword = lastOf isDoubleStar cs ps.varKeyword := by
  induction cs generalizing ps pairs with
  | nil => exact ⟨ps,rfl,by simpa [plains] using h,rfl,rfl,by simp [lastOf]⟩
  | cons c cs ih =>
    have hrest : ∀ d ∈ cs, d.endsPositional = false := fun d hd => hcs d (.tail _ hd)
    have hend := hcs c (.head _)
    have hs : c.isStar = false := by simp_all [endsPositional]
    have hk : c.kind ≠ "keyword_separator" := by simp_all [endsPositional]
    rw [List.map_cons, List.foldl_cons, entry_eq, lastOf_cons]
    by_cases hp : c.isPlain
    · have hd := (isStar_of_isPlain hp).2
      obtain ⟨qs,he,hq,h1,h2,h3⟩ := ih hrest _ _
        (h.addPositional (paramOf c) (c.valueNode?.map Expr.ofNode) c.position)
      refine ⟨qs,?_,?_,?_,?_,?_⟩
      · simpa [hp, add] using he
      · simpa [plains, hp] using hq
      · rw [h1]; cases c.valueNode? <;> rfl
      · rw [h2]; cases c.valueNode? <;> rfl
      · rw [h3, hd]; cases c.valueNode? <;> rfl
    · by_cases hd : c.isDoubleStar
      · obtain ⟨qs,he,hq,h1,h2,h3⟩ := ih hrest { ps with varKeyword := some (collectedBy c) } pairs
          ⟨h.positional,h.defaults,h.aligned⟩
        refine ⟨qs,?_,?_,h1,h2,?_⟩
        · simpa [hp, hs, hd, add] using he
        · simpa [plains, hp] using hq
        · simpa [hd] using h3
      · obtain ⟨qs,he,hq,h1,h2,h3⟩ := ih hrest ps pairs h
        refine ⟨qs,?_,?_,h1,h2,?_⟩
        · simpa [hp, hs, hd, hk, add] using he
        · simpa [plains, hp] using hq
        · simpa [hd] using h3

/-- A star or mark does the same wherever it stands. -/
theorem add_endsPositional {c : Python.Node} (h : c.endsPositional) (ps : Parameters) :
    add (ps, false) (Entry.ofNode c) = add (ps, true) (Entry.ofNode c) := by
  have hp : c.isPlain = false := by
    refine Bool.eq_false_iff.mpr fun hp => ?_
    simp [(isStar_of_isPlain hp).1] at h
  have hd := isDoubleStar_of_isStar h
  rw [entry_eq]
  by_cases hs : c.isStar
  · simp [hp, hs, add]
  · have hk : c.kind = "keyword_separator" := by simpa [endsPositional, hs] using h
    simp [hp, hs, hd, hk, add]

private theorem positionalArguments_undefaulted (first : Nat) (defaults : List Expr)
    (a : List (Parameter × Option Expr)) (rest : List Parameter) (i : Nat)
    (h : i + a.length ≤ first) (ha : ∀ x ∈ a, x.2 = none) :
    positionalArguments first defaults (a.map (·.1) ++ rest) i =
      a.map (fun x => .positional x.1.name (x.1.typeHint.map resolveName) x.2.isSome
        (x.2.map valueRepr)) ++ positionalArguments first defaults rest (i + a.length) := by
  induction a generalizing i with
  | nil => rfl
  | cons x a ih =>
    have hx := ha x (.head _)
    simp only [List.length_cons] at h
    have hi : ¬ first ≤ i := by omega
    have ih := ih (i + 1) (by omega) fun y hy => ha y (.tail _ hy)
    simp only [List.map_cons, List.cons_append, positionalArguments, hi, if_false, hx,
      List.length_cons, ih]
    rw [show i + 1 + a.length = i + (a.length + 1) by omega]

private theorem positionalArguments_defaulted (first : Nat) (before : List Expr)
    (b : List (Parameter × Option Expr)) (hb : ∀ x ∈ b, x.2.isSome) :
    positionalArguments first (before ++ b.filterMap (·.2)) (b.map (·.1))
        (first + before.length) =
      b.map fun x => .positional x.1.name (x.1.typeHint.map resolveName) x.2.isSome
        (x.2.map valueRepr) := by
  induction b generalizing before with
  | nil => rfl
  | cons x b ih =>
    obtain ⟨d,hd⟩ := Option.isSome_iff_exists.mp (hb x (.head _))
    have ih := ih (before ++ [d]) fun y hy => hb y (.tail _ hy)
    rw [List.length_append, List.append_assoc] at ih
    simp only [List.length_singleton, List.singleton_append, ← Nat.add_assoc] at ih
    have hat : (before ++ d :: b.filterMap (·.2))[first + before.length - first]? = some d := by
      simp
    simp only [List.map_cons, positionalArguments, List.filterMap_cons, hd, Nat.le_add_right,
      if_true, hat, ih]

private theorem positionalArguments_split {ps : Parameters}
    {pairs : List (Parameter × Option Expr)} (h : Split ps pairs) (hm : ps.misplaced = none) :
    positionalArguments (ps.positional.length - ps.defaults.length) ps.defaults ps.positional 0 =
      pairs.map fun x => .positional x.1.name (x.1.typeHint.map resolveName) x.2.isSome
        (x.2.map valueRepr) := by
  -- Matching from the right gives every parameter its own default.
  obtain ⟨a,b,rfl,ha,hb⟩ := h.aligned hm
  have hanil : a.filterMap (·.2) = [] := by simpa using ha
  have hblen : (b.filterMap (·.2)).length = b.length := by
    clear h hm hanil
    induction b with
    | nil => rfl
    | cons x b ih =>
      obtain ⟨d,hd⟩ := Option.isSome_iff_exists.mp (hb x (.head _))
      simp [hd, ih fun y hy => hb y (.tail _ hy)]
  have hfirst : ps.positional.length - ps.defaults.length = a.length := by
    simp [h.positional, h.defaults, hanil, hblen]
  have hb' := positionalArguments_defaulted a.length [] b hb
  rw [hfirst, h.positional, h.defaults, List.filterMap_append, hanil, List.map_append,
    positionalArguments_undefaulted a.length _ a _ 0 (by omega) ha, List.map_append]
  simpa using hb'

private theorem lastOf_toList (p : Python.Node → Bool) (cs : List Python.Node)
    (h : (cs.filter p).length ≤ 1) :
    (lastOf p cs none).toList = (cs.filter p).map collectedBy := by
  unfold lastOf
  match hl : cs.filter p with
  | [] => simp
  | [c] => simp
  | c :: d :: rest => simp [hl] at h

private theorem lastOf_append (p : Python.Node → Bool) (xs ys : List Python.Node)
    (old : Option Parameter) :
    lastOf p (xs ++ ys) old = lastOf p ys (lastOf p xs old) := by
  simp [lastOf, List.getLast?_append, Option.or_assoc]

private theorem filter_isStar_eq_nil {cs : List Python.Node}
    (h : ∀ c ∈ cs, c.endsPositional = false) :
    cs.filter isStar = [] := by
  refine List.filter_eq_nil_iff.mpr fun c hc => ?_
  have := h c hc
  simp_all [endsPositional]

private theorem foldl_add_eq (before after : List Python.Node)
    (hb : ∀ c ∈ before, c.endsPositional = false) (ha : ∀ c ∈ after.head?, c.endsPositional) :
    ∃ qs : Parameters, Split qs (plains before) ∧
      (((before ++ after).map Entry.ofNode).foldl add ({}, false)).1 =
        { qs with
          keywordOnly := plains after
          varPositional := lastOf isStar (before ++ after) none
          varKeyword := lastOf isDoubleStar (before ++ after) none } := by
  obtain ⟨qs,he,hsplit,hk,hv,hw⟩ := foldl_add_positional before hb {} []
    ⟨rfl,rfl,fun _ => ⟨[],[],rfl,by simp,by simp⟩⟩
  refine ⟨qs,by simpa using hsplit,?_⟩
  have hstar : lastOf isStar before none = none := by simp [lastOf, filter_isStar_eq_nil hb]
  rw [List.map_append, List.foldl_append, he, lastOf_append, lastOf_append, hstar, ← hw]
  cases after with
  | nil =>
    obtain ⟨positional,defaults,varPositional,keywordOnly,varKeyword,misplaced⟩ := qs
    simp_all [lastOf, plains]
  | cons c rest =>
    have hc : c.endsPositional := ha c rfl
    have hsame : ((c :: rest).map Entry.ofNode).foldl add (qs, false) =
        ((c :: rest).map Entry.ofNode).foldl add (qs, true) := by
      simp [add_endsPositional hc]
    rw [hsame, foldl_add_keywordOnly, hk, hv]
    simp

private theorem ofNode_eq (n : Python.Node) : ∃ qs : Parameters,
    Split qs (plains (n.parts.takeWhile (!·.endsPositional))) ∧
    Parameters.ofNode n =
      { qs with
        keywordOnly := plains (n.parts.dropWhile (!·.endsPositional))
        varPositional := lastOf isStar n.parts none
        varKeyword := lastOf isDoubleStar n.parts none } := by
  have h := foldl_add_eq (n.parts.takeWhile (!·.endsPositional))
    (n.parts.dropWhile (!·.endsPositional)) ?_ ?_
  · rwa [List.takeWhile_append_dropWhile] at h
  · intro c hc
    simpa using List.all_eq_true.mp List.all_takeWhile c hc
  · intro c hc
    have hne : n.parts.dropWhile (!·.endsPositional) ≠ [] := by
      intro hnil
      simp [hnil] at hc
    have := List.head_dropWhile_not (fun c : Python.Node => !c.endsPositional) hne
    rw [List.head?_eq_some_head hne] at hc
    cases hc
    simpa using this

private theorem map_plains
    (make : String → Option String → Bool → Option String → Argument) (cs : List Python.Node) :
    ((plains cs).map fun x => make x.1.name (x.1.typeHint.map resolveName) x.2.isSome
      (x.2.map valueRepr)) =
      (cs.filter isPlain).map fun c =>
        make c.plainName c.typeText? c.valueNode?.isSome c.valueText? := by
  rw [plains, List.map_map]
  refine List.map_congr_left fun c _ => ?_
  simp [paramOf, typeText?, valueText?, Function.comp_def]

private theorem map_collected (make : String → Option String → Argument) (stars : String)
    (p : Python.Node → Bool) (cs : List Python.Node) (h : (cs.filter p).length ≤ 1) :
    ((lastOf p cs none).map fun q => make (stars ++ q.name) (q.typeHint.map resolveName)).toList =
      (cs.filter p).map fun c => make (stars ++ c.collectingName) c.typeText? := by
  rw [Option.toList_map, lastOf_toList p cs h, List.map_map]
  refine List.map_congr_left fun c _ => ?_
  simp [collectedBy, typeText?, Function.comp_def]

/-- The arguments of a parameter list: the positional parameters up to the first star, without the
receiver; what the star collects; the keyword-only parameters; what the double star collects. Each
stands in source order, with the name, type and default of its own node. -/
theorem ofParameters_restores_defaults (n : Python.Node) (hasReceiver : Bool)
    (hs : (n.parts.filter isStar).length ≤ 1)
    (hd : (n.parts.filter isDoubleStar).length ≤ 1)
    (hm : (Parameters.ofNode n).misplaced = none) :
    Argument.ofParameters (Parameters.ofNode n) hasReceiver =
      (((n.parts.takeWhile (!·.endsPositional)).filter isPlain).map
        Argument.positionalOf).drop (if hasReceiver then 1 else 0) ++
      (n.parts.filter isStar).map Argument.varPositionalOf ++
      ((n.parts.dropWhile (!·.endsPositional)).filter isPlain).map Argument.keywordOnlyOf ++
      (n.parts.filter isDoubleStar).map Argument.varKeywordOf := by
  obtain ⟨qs,hsplit,he⟩ := ofNode_eq n
  rw [he] at hm ⊢
  have hpos := positionalArguments_split hsplit hm
  rw [map_plains .positional] at hpos
  have hstar := map_collected .varPositional "*" isStar n.parts hs
  have hdouble := map_collected .varKeyword "**" isDoubleStar n.parts hd
  have hkey := map_plains .keywordOnly (n.parts.dropWhile (!·.endsPositional))
  unfold Argument.ofParameters
  dsimp only
  rw [hpos, hstar, hdouble, hkey]
  cases hasReceiver <;> rfl

private def mixedParameters : Python.Node :=
  .branch "parameters" "" none 0 0 [.leaf "identifier" "self" none 0 0,
    .leaf "positional_separator" "/" none 0 0,
    .branch "typed_parameter" "a: int" none 0 0 [.leaf "identifier" "a" none 0 0,
      .leaf "identifier" "int" (some "type") 0 0],
    .branch "default_parameter" "b=True" none 0 0 [.leaf "identifier" "b" (some "name") 0 0,
      .leaf "true" "True" (some "value") 0 0],
    .branch "list_splat_pattern" "*rest" none 0 0 [.leaf "identifier" "rest" none 0 0],
    .leaf "identifier" "c" none 0 0,
    .branch "default_parameter" "d=None" none 0 0 [.leaf "identifier" "d" (some "name") 0 0,
      .leaf "none" "None" (some "value") 0 0],
    .branch "dictionary_splat_pattern" "**more" none 0 0 [.leaf "identifier" "more" none 0 0]]

theorem ofParameters_restores_defaults_mixed :
    (mixedParameters.parts.filter isStar).length ≤ 1 ∧
    (mixedParameters.parts.filter isDoubleStar).length ≤ 1 ∧
    (Parameters.ofNode mixedParameters).misplaced = none ∧
    Argument.ofParameters (Parameters.ofNode mixedParameters) true =
      [.positional "a" (some "int") false none, .positional "b" none true (some "True"),
        .varPositional "*rest" none, .keywordOnly "c" none false none,
        .keywordOnly "d" none true (some "None"), .varKeyword "**more" none] := by
  have hs : (mixedParameters.parts.filter isStar).length ≤ 1 := by decide
  have hd : (mixedParameters.parts.filter isDoubleStar).length ≤ 1 := by decide
  have hm : (Parameters.ofNode mixedParameters).misplaced = none := by decide
  exact ⟨hs,hd,hm,(ofParameters_restores_defaults mixedParameters true hs hd hm).trans (by decide)⟩

end DocSnapshot.Record
