import DocSnapshot.Proofs.Record.Alike

/-! Comments and continued lines in a source. A tree to which they are added is refused for the same
reason as before, or its structure is the same but for lines and dumps. Continued lines have to keep
clear of the places where parts are counted: there each of them is taken for one part more. -/
namespace DocSnapshot.Python
open DocSnapshot.Python.Node (Extends ExtendsAll leaf branch)

/-- Whether two trees are refused for the same reason, or read as statements that are the same once
lines and dumps are left out, with structures that differ in nothing else. -/
def ReadAlike (lax : Bool) : (r r' : Except ParseError (List Stmt)) → Prop
  | .ok body, .ok body' => Stmt.bareBody lax body' = Stmt.bareBody lax body ∧
      (Record.Structure.ofBody body).Alike (Record.Structure.ofBody body')
  | .error e, .error e' => e'.reason = e.reason
  | _, _ => False

private theorem ofTree_of_shallow {t : Node} (h : t.tooDeep? = none) : ofTree t =
    match Stmt.misplaced? (Stmt.ofBlock t) with
    | some p => .error (.misplacedParameter p)
    | none => .ok (Stmt.ofBlock t) := by
  cases hp : Stmt.misplaced? (Stmt.ofBlock t) <;> simp [ofTree, h, hp]

/-- Trees that are too deep alike, with statements that are the same once lines and dumps are left
out, are read alike. -/
theorem readAlike_of_bare {lax : Bool} {t t' : Node}
    (hdeep : t'.tooDeep? = none ↔ t.tooDeep? = none)
    (hbare : Stmt.bareBody lax (Stmt.ofBlock t') = Stmt.bareBody lax (Stmt.ofBlock t)) :
    ReadAlike lax (ofTree t) (ofTree t') := by
  have hmisplaced := @Stmt.misplaced?_bareBody lax (Stmt.ofBlock t')
  rw [hbare, Stmt.misplaced?_bareBody] at hmisplaced
  have halike := Record.Structure.ofBody_alike hbare (Stmt.dumped_ofBlock t)
    (Stmt.dumped_ofBlock t')
  cases ht : t.tooDeep? with
  | some n =>
    cases ht' : t'.tooDeep? with
    | some n' =>
      rw [ofTree, ofTree, ht, ht']
      rfl
    | none => simp [hdeep.mp ht'] at ht
  | none =>
    rw [ofTree_of_shallow ht, ofTree_of_shallow (hdeep.mpr ht)]
    cases hp : Stmt.misplaced? (Stmt.ofBlock t) with
    | some p =>
      cases hp' : Stmt.misplaced? (Stmt.ofBlock t') with
      | some p' => rfl
      | none => simp [hp, hp'] at hmisplaced
    | none =>
      cases hp' : Stmt.misplaced? (Stmt.ofBlock t') with
      | some p' => simp [hp, hp'] at hmisplaced
      | none => exact ⟨hbare,halike⟩

/-- Continued lines change nothing but lines and dumps, neither what is said of a module nor whether
it is read, if they leave the texts that are copied whole and are added where parts are not taken
one by one, and not before the first statement of a body, the expression of a decorator or the name
of a parameter. Comments may be added anywhere. -/
theorem ofTree_ignores_continued_lines {parent : String} {t t' : Node} (hmodule : t.kind = "module")
    (h : Extends true false parent t t') : ReadAlike true (ofTree t) (ofTree t') := by
  have hdeep : t'.tooDeep? = none ↔ t.tooDeep? = none := by
    rw [Node.tooDeep?_eq_none_iff, Node.tooDeep?_eq_none_iff, Node.height_of_extends h]
  have hbare : Stmt.bareBody true (Stmt.ofBlock t') = Stmt.bareBody true (Stmt.ofBlock t) :=
    Stmt.bareBody_ofBlock h (by simp [Node.holdsStatements, hmodule])
  exact readAlike_of_bare hdeep hbare

private def continuedLine : Node := leaf "line_continuation" "\\\n" none 0 0

private def parameterList (text : String) (between : List Node) : Node :=
  branch "parameters" text (some "parameters") 0 0
    (leaf "identifier" "a" none 0 0 :: between ++ [leaf "identifier" "b" none 0 0])

private def definition (text parameters : String) (between : List Node) : Node :=
  branch "function_definition" text none 0 0 [leaf "identifier" "f" (some "name") 0 0,
    parameterList parameters between,
    branch "block" "pass" (some "body") 0 0 [leaf "pass_statement" "pass" none 0 0]]

private def onOneLine : Node :=
  branch "module" "def f(a, b): pass" none 0 0 [definition "def f(a, b): pass" "(a, b)" []]

private def onTwoLines : Node :=
  branch "module" "def f(a, \\\nb): pass" none 0 0
    [definition "def f(a, \\\nb): pass" "(a, \\\nb)" [continuedLine]]

private theorem extends_branch {parent kind text text' : String} {field : Option String}
    {cs ds : List Node} (hread : Node.isRead kind field = true) (hcs : cs ≠ [])
    (htext : Node.KeepsText parent (branch kind text field 0 0 cs) (branch kind text' field 0 0 ds))
    (h : ExtendsAll true false kind (Node.gapOf true kind field) cs ds) :
    Extends true false parent (branch kind text field 0 0 cs) (branch kind text' field 0 0 ds) := by
  rw [branch, Extends, if_pos ⟨rfl,hread⟩]
  exact ⟨rfl,rfl,rfl,fun _ => htext,fun hnil => absurd hnil hcs,h⟩

private theorem onTwoLines_extends : Extends true false "" onOneLine onTwoLines := by
  have hparameters : Extends true false "function_definition" (parameterList "(a, b)" [])
      (parameterList "(a, \\\nb)" [continuedLine]) := by
    refine extends_branch (by decide) (by decide) ⟨by decide,rfl,by decide⟩ ?_
    refine Node.extendsAll_cons (Node.extends_refl _) (Node.extendsAll_extra (by decide) ?_)
    exact Node.extendsAll_cons (Node.extends_refl _) Node.extendsAll_nil
  have hdefinition : Extends true false "module" (definition "def f(a, b): pass" "(a, b)" [])
      (definition "def f(a, \\\nb): pass" "(a, \\\nb)" [continuedLine]) := by
    refine extends_branch (by decide) (by decide) ⟨by decide,rfl,by decide⟩ ?_
    refine Node.extendsAll_cons (Node.extends_refl _) (Node.extendsAll_cons hparameters ?_)
    exact Node.extendsAll_cons (Node.extends_refl _) Node.extendsAll_nil
  refine extends_branch (by decide) (by decide) ⟨by decide,rfl,by decide⟩ ?_
  exact Node.extendsAll_cons hdefinition Node.extendsAll_nil

theorem ofTree_ignores_continued_lines_parameters :
    ∃ body body', ofTree onOneLine = .ok body ∧ ofTree onTwoLines = .ok body' ∧
      (Record.Structure.ofBody body).Alike (Record.Structure.ofBody body') := by
  have h := ofTree_ignores_continued_lines rfl onTwoLines_extends
  have hone : onOneLine.tooDeep? = none := (Node.tooDeep?_eq_none_iff _).mpr (by decide)
  have htwo : onTwoLines.tooDeep? = none := (Node.tooDeep?_eq_none_iff _).mpr (by decide)
  rw [ofTree_of_shallow hone, ofTree_of_shallow htwo] at h ⊢
  exact ⟨_,_,rfl,rfl,h.2⟩

/-- A continued line among the arguments of a class is taken for one base more. -/
theorem basesOf_continued {kind text : String} {named : Bool} {field : Option String}
    {row column : Nat} (before after : List Node) {e : Node}
    (hkind : e.kind = "line_continuation") (hnamed : e.named = true) :
    Class.basesOf (.mk kind named field text row column (before ++ e :: after)) =
      Class.basesOf (.mk kind named field text row column before) ++ .other e.dump ::
        Class.basesOf (.mk kind named field text row column after) := by
  have hexpr : Expr.ofNode e = .other e.dump := by simp [Expr.ofNode_eq, hkind]
  simp [Class.basesOf, Node.parts, Node.children, Node.isPart, hkind, hnamed, hexpr]

end DocSnapshot.Python
