import Mathlib.Data.List.Basic
import DocSnapshot.Proofs.Python.Traversal

/-! Nothing that a tree declares is lost or counted twice: the statements of a module, walked
through all their blocks, declare what its nodes declare, in document order. -/
namespace DocSnapshot.Python
open DocSnapshot.Python.Node (leaf branch)
open DocSnapshot.Record (importsOf)

private abbrev Item := Record.Import ⊕ String × Nat

private def Node.items (n : Node) : List Item :=
  n.declaredImports.map .inl ++ n.declaredClass?.toList.map .inr

private def Stmt.class? : Stmt → Option (String × Nat)
  | .classDef c _ => some (c.name, c.line)
  | _ => none

private def Stmt.items (s : Stmt) : List Item :=
  (importsOf s).map .inl ++ s.class?.toList.map .inr

private theorem items_of_role {n : Node}
    (h : n.role ≠ .importing ∧ n.role ≠ .definition) : n.items = [] := by
  have hk : n.kind ≠ "import_statement" ∧ n.kind ≠ "import_from_statement" ∧
      n.kind ≠ "future_import_statement" ∧ n.kind ≠ "class_definition" := by
    refine ⟨?_,?_,?_,?_⟩ <;> intro hk <;> simp [Node.role, hk] at h
  obtain ⟨h1,h2,h3,h4⟩ := hk
  simp [Node.items, Node.declaredImports, Node.declaredClass?, h1, h2, h3, h4]

private theorem importNames_direct (n : Node) :
    (importsOf (.imports (Stmt.importNames n))) = (n.childrenIn "name").map fun c =>
      ⟨.direct, c.importedText, none, c.aliasText?⟩ := by
  simp only [importsOf, Stmt.importNames, List.map_map]
  apply List.map_congr_left
  intro c _
  by_cases h : c.kind = "aliased_import" <;>
    simp [Stmt.importName, Node.importedText, Node.aliasText?, h]

private theorem importNames_from (module : String) (n : Node) :
    (importsOf (.importsFrom module (Stmt.importNames n))) =
      (n.childrenIn "name").map (Node.importFrom module) := by
  simp only [importsOf, Stmt.importNames, List.map_map]
  apply List.map_congr_left
  intro c _
  by_cases h : c.kind = "aliased_import" <;>
    simp [Stmt.importName, Node.importFrom, Node.importedText, Node.aliasText?, h]

private theorem importsOf_ofImportFrom {n : Node} (h : n.kind = "import_from_statement") :
    importsOf (Stmt.ofImportFrom n) = n.declaredImports := by
  have hw (m : String) (ns ws : List ImportName) : importsOf (.importsFrom m (ns ++ ws)) =
      importsOf (.importsFrom m ns) ++ importsOf (.importsFrom m ws) := by
    simp [importsOf]
  have hn : n.kind ≠ "import_statement" := by simp [h]
  rw [Node.declaredImports, if_neg hn, if_pos h, Stmt.ofImportFrom, hw, importNames_from]
  split <;> simp [importsOf]

private theorem items_importing {n : Node} (h : n.role = .importing) :
    (Stmt.ofNode n).items = n.items := by
  have hc : n.declaredClass? = none := by
    rcases kind_of_role h with hk | hk | hk <;> simp [Node.declaredClass?, hk]
  rw [Stmt.ofNode_eq, Node.items, hc, Stmt.items]
  rcases kind_of_role h with hk | hk | hk
  · simp [hk, importNames_direct, Node.declaredImports, Stmt.class?]
  · have hclass : (Stmt.ofImportFrom n).class? = none := rfl
    simp [hk, importsOf_ofImportFrom, hclass]
  · simp [hk, importNames_from, Node.declaredImports, Stmt.class?]

private theorem mirrors_items : Mirrors Node.items Stmt.items where
  idle := items_of_role
  importing := items_importing
  functionDef decorators body n h := by
    simp [Stmt.items, Stmt.class?, importsOf, Node.items, Node.declaredImports,
      Node.declaredClass?, h]
  classDef decorators body n h := by
    simp [Stmt.items, Stmt.class?, importsOf, Node.items, Node.declaredImports,
      Node.declaredClass?, Class.ofNode, Node.nameText, h]
  assign _ _ _ := rfl
  expr _ := rfl
  nested _ := rfl
  other := rfl

private theorem imports_of_items {α : Type} (imports : α → List Record.Import)
    (class? : α → Option (String × Nat)) (xs : List α) :
    (xs.flatMap fun x => (imports x).map .inl ++ (class? x).toList.map .inr : List Item).filterMap
      Sum.getLeft? = xs.flatMap imports := by
  rw [List.filterMap_flatMap]
  congr 1
  funext x
  cases class? x <;> simp [List.filterMap_map, Function.comp_def]

private theorem classes_of_items {α : Type} (imports : α → List Record.Import)
    (class? : α → Option (String × Nat)) (xs : List α) :
    (xs.flatMap fun x => (imports x).map .inl ++ (class? x).toList.map .inr : List Item).filterMap
      Sum.getRight? = xs.filterMap class? := by
  rw [List.filterMap_flatMap, List.filterMap_eq_flatMap_toList]
  congr 1
  funext x
  cases class? x <;> simp [List.filterMap_map, Function.comp_def]

private theorem classes_ofBody (body : List Stmt) :
    (Record.Structure.ofBody body).classes.map (fun c => (c.name, c.line)) =
      (Stmt.walkAll body).filterMap Stmt.class? := by
  simp only [Record.Structure.ofBody, List.map_filterMap]
  congr 1
  funext s
  cases s <;> rfl

private theorem classNodes_eq (ns : List Node) :
    ns.filterMap Node.declaredClass? =
      (ns.filter (·.kind = "class_definition")).map fun n => (n.nameText, n.row + 1) := by
  induction ns with
  | nil => rfl
  | cons n ns ih =>
    by_cases h : n.kind = "class_definition" <;> simp [Node.declaredClass?, h, ih]

/-- The structure of a module lists every class and every import of its tree, wherever it is
nested, once and in document order. -/
theorem ofBody_lists_declarations (root : Node) (h : root.isModule) :
    ((Record.Structure.ofBody (Stmt.ofBlock root)).classes.map fun c => (c.name, c.line)) =
      (root.preorder.filter (·.kind = "class_definition")).map
        (fun n => (n.nameText, n.row + 1)) ∧
    (Record.Structure.ofBody (Stmt.ofBlock root)).imports =
      root.preorder.flatMap Node.declaredImports := by
  have hitems := mirrors_items.flatMap_walkAll h
  refine ⟨?_,?_⟩
  · have hc := congrArg (List.filterMap Sum.getRight?) hitems
    rw [classes_ofBody, ← classNodes_eq]
    exact (classes_of_items _ _ _).symm.trans (hc.trans (classes_of_items _ _ _))
  · have hi := congrArg (List.filterMap Sum.getLeft?) hitems
    exact (imports_of_items _ _ _).symm.trans (hi.trans (imports_of_items _ _ _))

private def guardedModule : Node :=
  branch "module" "" none 0 0 [branch "try_statement" "" none 0 0 [
    branch "block" "" (some "body") 1 0 [branch "import_statement" "" none 1 0 [
      branch "aliased_import" "" (some "name") 1 0 [
        leaf "dotted_name" "os . path" (some "name") 1 0,
        leaf "identifier" "p" (some "alias") 1 0]]],
    branch "except_clause" "" none 2 0 [leaf "identifier" "E" none 2 0,
      branch "block" "" none 3 0 [branch "decorated_definition" "" none 3 0 [
        branch "decorator" "" none 3 0 [leaf "identifier" "d" none 3 0],
        branch "class_definition" "" (some "definition") 4 0 [
          leaf "identifier" "C" (some "name") 4 0,
          branch "block" "" (some "body") 5 0 [branch "import_from_statement" "" none 5 0 [
            leaf "relative_import" ".pkg" (some "module_name") 5 0,
            leaf "wildcard_import" "*" none 5 0]]]]]]]]

theorem ofBody_lists_declarations_guarded : guardedModule.isModule ∧
    ((Record.Structure.ofBody (Stmt.ofBlock guardedModule)).classes.map
      fun c => (c.name, c.line)) = [("C", 5)] ∧
    (Record.Structure.ofBody (Stmt.ofBlock guardedModule)).imports =
      [⟨.direct, "os.path", none, some "p"⟩, ⟨.fromModule, ".pkg", some "*", none⟩] := by
  have h : guardedModule.isModule := by decide
  obtain ⟨hc,hi⟩ := ofBody_lists_declarations guardedModule h
  exact ⟨h,hc.trans (by decide),hi.trans (by decide)⟩

end DocSnapshot.Python
