import DocSnapshot.FileSystem.Artifact
import DocSnapshot.Proofs.FileSystem.Effect
import DocSnapshot.Proofs.OrderedMap

/-! Trees whose names are in order, and the files a walk over such a tree finds: each once, and
exactly those that no hidden directory leads to. -/
namespace DocSnapshot.Node
open OrderedMap (Increasing)

mutual
/-- Whether names are in order, at every level. -/
def ordered : Node → Bool
  | .dir es => orderedAll es
  | _ => true

def orderedAll : List (String × Node) → Bool
  | [] => true
  | (name, n) :: rest => rest.all (name < ·.1) && n.ordered && orderedAll rest
end

theorem orderedAll_iff (es : List (String × Node)) :
    orderedAll es = true ↔ Increasing es ∧ ∀ e ∈ es, e.2.ordered = true := by
  induction es with
  | nil => simp [orderedAll, Increasing]
  | cons e rest ih =>
    simp only [orderedAll, Bool.and_eq_true, List.all_eq_true, decide_eq_true_eq, ih, Increasing,
      List.pairwise_cons, List.forall_mem_cons]
    exact ⟨fun ⟨⟨ha,hb⟩,hc,hd⟩ => ⟨⟨ha,hc⟩,hb,hd⟩,fun ⟨⟨ha,hc⟩,hb,hd⟩ => ⟨⟨ha,hb⟩,hc,hd⟩⟩

theorem orderedAll_entries {n : Node} (h : n.ordered = true) : orderedAll n.entries = true := by
  cases n with
  | dir es => rwa [ordered] at h
  | _ => rfl

private theorem ordered_of_get? {s : String} {es : List (String × Node)} {n : Node}
    (h : orderedAll es = true) (hget : OrderedMap.get? s es = some n) : n.ordered = true := by
  obtain ⟨hinc,hall⟩ := (orderedAll_iff es).mp h
  exact hall (s, n) ((hinc.mem_iff s n).mpr hget)

theorem ordered_of_find? {path : List String} {n m : Node} (h : n.ordered = true)
    (hfind : n.find? path = some m) : m.ordered = true := by
  induction path generalizing n with
  | nil =>
    cases hfind
    exact h
  | cons s rest ih =>
    rw [find?, Option.bind_eq_some_iff] at hfind
    obtain ⟨k,hk,hfind⟩ := hfind
    exact ih (ordered_of_get? (orderedAll_entries h) hk) hfind

private theorem ordered_set {s : String} {es : List (String × Node)} {n : Node}
    (h : orderedAll es = true) (hn : n.ordered = true) :
    (Node.dir (OrderedMap.set s n es)).ordered = true := by
  obtain ⟨hinc,hall⟩ := (orderedAll_iff es).mp h
  rw [ordered, orderedAll_iff]
  refine ⟨hinc.set,fun e he => ?_⟩
  rcases OrderedMap.mem_set he with rfl | he
  · exact hn
  · exact hall e he

theorem ordered_put {new : Node} (hnew : new.ordered = true) (path : List String) {n : Node}
    (h : n.ordered = true) : (put new path n).ordered = true := by
  fun_induction put new path n with
  | case1 => exact hnew
  | case2 s es =>
    rw [ordered] at h
    exact ordered_set h hnew
  | case3 s rest es _ m hget ih =>
    rw [ordered] at h
    exact ordered_set h (ih (ordered_of_get? h hget))
  | case4 => exact h
  | case5 => exact h

theorem ordered_remove (path : List String) {n : Node} (h : n.ordered = true) :
    (remove path n).ordered = true := by
  fun_induction remove path n with
  | case1 s es =>
    rw [ordered, orderedAll_iff] at h ⊢
    exact ⟨h.1.erase s,fun e he => h.2 e ((List.mem_filter.mp he).1)⟩
  | case2 s rest es _ m hget ih =>
    rw [ordered] at h
    exact ordered_set h (ih (ordered_of_get? h hget))
  | case3 => exact h
  | case4 => exact h

private theorem mem_filesOf (es : List (String × Node)) (path : List String) :
    path ∈ filesOf es ↔ ∃ name n rest, (name, n) ∈ es ∧ path = name :: rest ∧
      (n.isDir && isHiddenName name) = false ∧ rest ∈ n.files := by
  induction es with
  | nil => simp [filesOf]
  | cons e others ih =>
    obtain ⟨name,n⟩ := e
    rw [filesOf, List.mem_append, ih]
    constructor
    · rintro (hmem | ⟨name',n',rest,he,hrest⟩)
      · split at hmem
        · simp at hmem
        · next hhidden =>
          obtain ⟨rest,hrest,rfl⟩ := List.mem_map.mp hmem
          exact ⟨name,n,rest,List.mem_cons_self,rfl,by simpa using hhidden,hrest⟩
      · exact ⟨name',n',rest,List.mem_cons_of_mem _ he,hrest⟩
    · rintro ⟨name',n',rest,he,rfl,hhidden,hrest⟩
      rcases List.mem_cons.mp he with heq | he
      · cases heq
        rw [hhidden]
        exact .inl (List.mem_map_of_mem hrest)
      · exact .inr ⟨name',n',rest,he,rfl,hhidden,hrest⟩

private theorem isDir_of_kind? {n : Node} {path : List String} {bytes : List UInt8} {x : Bool}
    (h : n.kind? path = some (.file bytes x)) : n.isDir = !path.isEmpty := by
  cases path with
  | nil => cases n <;> simp_all [kind?, find?, kind, isDir]
  | cons s rest => cases n <;> simp_all [kind?, find?, entries, OrderedMap.get?, isDir]

/-- A walk finds the regular files that no hidden directory leads to. -/
theorem mem_files_iff (path : List String) {n : Node} (h : n.ordered = true) :
    path ∈ n.files ↔ (∃ bytes x, n.kind? path = some (.file bytes x)) ∧
      ∀ dir ∈ path.dropLast, isHiddenName dir = false := by
  induction path generalizing n with
  | nil =>
    cases n with
    | file bytes x => simp [files, kind?, find?, kind]
    | link target => simp [files, kind?, find?, kind]
    | dir es => simp [files, mem_filesOf, kind?, find?, kind]
  | cons s rest ih =>
    cases n with
    | file bytes x => simp [files, kind?, find?, entries, OrderedMap.get?]
    | link target => simp [files, kind?, find?, entries, OrderedMap.get?]
    | dir es =>
      rw [ordered] at h
      obtain ⟨hinc,hall⟩ := (orderedAll_iff es).mp h
      rw [files, mem_filesOf, kind?_cons]
      constructor
      · rintro ⟨name,n,rest',he,heq,hhidden,hrest⟩
        cases heq
        obtain ⟨⟨bytes,x,hkind⟩,hdirs⟩ := (ih (hall _ he)).mp hrest
        rw [isDir_of_kind? hkind] at hhidden
        refine ⟨⟨bytes,x,by rw [(hinc.mem_iff s n).mp he, Option.bind_some, hkind]⟩,?_⟩
        cases rest with
        | nil => simp
        | cons t rest => simpa [List.dropLast] using ⟨by simpa using hhidden,hdirs⟩
      · rintro ⟨⟨bytes,x,hkind⟩,hdirs⟩
        obtain ⟨n,hget,hkind⟩ := Option.bind_eq_some_iff.mp hkind
        have he := (hinc.mem_iff s n).mpr hget
        have hbelow : ∀ dir ∈ rest.dropLast, isHiddenName dir = false := by
          intro dir hdir
          refine hdirs dir ?_
          cases rest with
          | nil => simp at hdir
          | cons t rest => exact List.mem_cons_of_mem _ hdir
        refine ⟨s,n,rest,he,rfl,?_,(ih (hall _ he)).mpr ⟨⟨bytes,x,hkind⟩,hbelow⟩⟩
        rw [isDir_of_kind? hkind]
        cases rest with
        | nil => rfl
        | cons t rest => simpa using hdirs s List.mem_cons_self

mutual
/-- A walk finds no file twice. -/
theorem nodup_files : (n : Node) → n.ordered = true → n.files.Nodup
  | .file _ _, _ => by simp [files]
  | .link _, _ => by simp [files]
  | .dir es, h => by
    rw [files]
    rw [ordered] at h
    exact nodup_filesOf es h

theorem nodup_filesOf : (es : List (String × Node)) → orderedAll es = true → (filesOf es).Nodup
  | [], _ => by simp [filesOf]
  | (name, n) :: rest, h => by
    have hinc := ((orderedAll_iff _).mp h).1
    simp only [orderedAll, Bool.and_eq_true] at h
    rw [filesOf, List.nodup_append]
    refine ⟨?_,nodup_filesOf rest h.2,?_⟩
    · split
      · exact List.nodup_nil
      · refine List.pairwise_map.mpr ((nodup_files n h.1.2).imp fun hne heq => hne ?_)
        exact (List.cons.inj heq).2
    -- a file of a later entry begins with a later name
    · rintro path hpath other hother rfl
      obtain ⟨name',n',below,he,rfl,-,-⟩ := (mem_filesOf rest _).mp hother
      split at hpath
      · simp at hpath
      · obtain ⟨below',-,heq⟩ := List.mem_map.mp hpath
        cases heq
        exact String.lt_irrefl name ((List.pairwise_cons.mp hinc).1 (name, n') he)
end

end DocSnapshot.Node

namespace DocSnapshot.FileSystem

variable {fs gs : FileSystem}

theorem ordered_write {path : String} {bytes : List UInt8} (hfs : fs.root.ordered = true)
    (h : fs.write path bytes = .ok gs) : gs.root.ordered = true := by
  rw [write] at h
  cases hfound : fs.resolve path true with
  | error e => rw [hfound] at h; cases h
  | ok found =>
    rw [hfound] at h
    cases found with
    | present p n =>
      cases n with
      | file old x =>
        cases h
        exact Node.ordered_put rfl p hfs
      | _ => cases h
    | absent dir name trailing =>
      cases trailing with
      | true => cases h
      | false =>
        cases h
        exact Node.ordered_put rfl _ hfs

theorem ordered_rename {source target : String} (hroot : fs.kind? [] = some .dir)
    (hfs : fs.root.ordered = true) (h : fs.rename source target = .ok gs) :
    gs.root.ordered = true := by
  rw [rename] at h
  cases hs : fs.resolve source false with
  | error e => rw [hs] at h; cases h
  | ok found =>
    cases found with
    | absent dir name trailing => rw [hs] at h; cases h
    | present p n =>
      have hn := Node.ordered_of_find? hfs (find?_of_resolve hroot hs)
      have hmoved : ∀ q, (Node.put n q (Node.remove p fs.root)).ordered = true := fun q =>
        Node.ordered_put hn q (Node.ordered_remove p hfs)
      simp only [hs, bind, Except.bind] at h
      split at h
      · cases h
      · split at h
        · split at h
          · cases h
            exact hfs
          · split at h
            · cases h
            · cases h
              exact hmoved _
        · split at h
          · cases h
          · cases h
            exact hmoved _

private theorem ordered_makeDir {path : String} (hfs : fs.root.ordered = true)
    (h : fs.makeDir path = .ok gs) : gs.root.ordered = true := by
  rw [makeDir] at h
  cases hfound : fs.resolve path false with
  | error e => rw [hfound] at h; cases h
  | ok found =>
    rw [hfound] at h
    cases found with
    | present p n => cases h
    | absent dir name trailing =>
      cases h
      exact Node.ordered_put rfl _ hfs

private theorem ordered_makeDirsWithin (hfs : fs.root.ordered = true) (path : String) (n : Nat) :
    (fs.makeDirsWithin path n).1.root.ordered = true := by
  induction n generalizing path with
  | zero => exact hfs
  | succ n ih =>
    rw [makeDirsWithin]
    split
    · exact hfs
    · split
      · next made hmade => exact ordered_makeDir hfs hmade
      · split
        · exact hfs
        · next parent hparent =>
          have hmade := ih parent
          split
          · next made e he => rwa [he] at hmade
          · next made he =>
            rw [he] at hmade
            split
            · next gs hgs =>
              rw [ensureDir] at hgs
              split at hgs
              · next again hagain =>
                cases hgs
                exact ordered_makeDir hmade hagain
              · split at hgs <;> cases hgs
                exact hmade
            · exact hmade
      · exact hfs

/-- A change leaves names in order. -/
theorem ordered_apply (hroot : fs.kind? [] = some .dir) (hfs : fs.root.ordered = true)
    (step : FileStep) : (step.apply fs).1.root.ordered = true := by
  cases step with
  | makeDirs path => exact ordered_makeDirsWithin hfs path _
  | write path bytes =>
    rw [FileStep.apply]
    cases h : fs.write path bytes with
    | ok gs => exact ordered_write hfs h
    | error e => exact hfs
  | rename source target =>
    rw [FileStep.apply]
    cases h : fs.rename source target with
    | ok gs => exact ordered_rename hroot hfs h
    | error e => exact hfs

end DocSnapshot.FileSystem
