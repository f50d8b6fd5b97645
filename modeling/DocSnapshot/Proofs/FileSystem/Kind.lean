import DocSnapshot.FileSystem.Basic

/-! A file system seen as the kinds of what stands at its paths. Putting and removing nodes are
updates of this view. -/
namespace DocSnapshot

namespace OrderedMap

variable {α : Type}

theorem get?_set (key other : String) (a : α) (entries : List (String × α)) :
    get? other (set key a entries) = if key = other then some a else get? other entries := by
  induction entries with
  | nil => rfl
  | cons e rest ih =>
    obtain ⟨k,b⟩ := e
    rw [set]
    split
    · next hk =>
      subst hk
      simp only [get?]
      split <;> rfl
    · next hk =>
      split
      · rfl
      · simp only [get?, ih]
        split
        · next hother => rw [if_neg (hother ▸ hk)]
        · rfl

theorem get?_erase (key other : String) (entries : List (String × α)) :
    get? other (erase key entries) = if key = other then none else get? other entries := by
  induction entries with
  | nil => simp [erase, get?]
  | cons e rest ih =>
    obtain ⟨k,b⟩ := e
    by_cases hk : k = key
    · rw [erase, List.filter_cons_of_neg (by simpa using hk), get?]
      refine ih.trans ?_
      subst hk
      split <;> rfl
    · rw [erase, List.filter_cons_of_pos (by simpa using hk), get?, get?]
      split
      · next hother => rw [if_neg (hother ▸ Ne.symm hk)]
      · exact ih

end OrderedMap

/-- What stands at a path: all of a node but what is below it. -/
inductive Kind where
  | file (bytes : List UInt8) (executable : Bool)
  | link (target : String)
  | dir
  deriving DecidableEq, Repr

def Kind.bytes? : Kind → Option (List UInt8)
  | .file bytes _ => some bytes
  | _ => none

def Kind.isExecutable : Kind → Bool
  | .file _ executable => executable
  | _ => false

namespace Node

def kind : Node → Kind
  | .file bytes x => .file bytes x
  | .link target => .link target
  | .dir _ => .dir

def kind? (path : List String) (n : Node) : Option Kind := (n.find? path).map kind

theorem find?_append (p q : List String) (n : Node) :
    n.find? (p ++ q) = (n.find? p).bind (find? q) := by
  induction p generalizing n with
  | nil => rfl
  | cons s rest ih =>
    simp only [List.cons_append, find?, Option.bind_assoc]
    congr 1
    funext m
    exact ih m

theorem kind?_append (p q : List String) (n : Node) :
    n.kind? (p ++ q) = (n.find? p).bind (kind? q) := by
  rw [kind?, find?_append, Option.map_bind]
  rfl

private theorem kind?_of_leaf {n : Node} (h : n.kind ≠ .dir) {path : List String} (hp : path ≠ []) :
    n.kind? path = none := by
  cases path with
  | nil => exact (hp rfl).elim
  | cons s rest =>
    cases n with
    | dir es => exact (h rfl).elim
    | _ => rfl

theorem eq_dir_of_kind {n : Node} (h : n.kind = .dir) : ∃ es, n = .dir es := by
  cases n with
  | dir es => exact ⟨es,rfl⟩
  | _ => simp [kind] at h

theorem kind?_cons (s : String) (rest : List String) (es : List (String × Node)) :
    kind? (s :: rest) (.dir es) = (OrderedMap.get? s es).bind (kind? rest) := by
  rw [kind?, find?, Option.map_bind]
  rfl

theorem kind?_put (new : Node) (dir : List String) (name : String) (path : List String) (n : Node)
    (h : n.kind? dir = some .dir) :
    (put new (dir ++ [name]) n).kind? path =
      if dir ++ [name] <+: path then new.kind? (path.drop (dir.length + 1)) else n.kind? path := by
  induction dir generalizing n path with
  | nil =>
    obtain ⟨es,rfl⟩ := eq_dir_of_kind (Option.some.inj h)
    cases path with
    | nil => rfl
    | cons s rest =>
      rw [List.nil_append, put, kind?_cons, kind?_cons, OrderedMap.get?_set]
      by_cases hs : name = s
      · simp [hs]
      · simp [hs, List.cons_prefix_cons]
  | cons d dirs ih =>
    obtain ⟨es,rfl⟩ : ∃ es, n = .dir es := by
      cases n with
      | dir es => exact ⟨es,rfl⟩
      | _ => simp [kind?, find?, entries, OrderedMap.get?] at h
    rw [kind?_cons, Option.bind_eq_some_iff] at h
    obtain ⟨m,hm,hdir⟩ := h
    have hput : put new ((d :: dirs) ++ [name]) (.dir es) =
        .dir (OrderedMap.set d (put new (dirs ++ [name]) m) es) := by
      cases dirs <;> simp [put, hm]
    rw [hput]
    cases path with
    | nil => rfl
    | cons s rest =>
      rw [kind?_cons, kind?_cons, OrderedMap.get?_set]
      by_cases hs : d = s
      · subst hs
        simp [ih rest m hdir, List.cons_prefix_cons, hm]
      · simp [hs, List.cons_prefix_cons]

theorem kind?_remove (dir : List String) (name : String) (path : List String) (n : Node) :
    (remove (dir ++ [name]) n).kind? path =
      if dir ++ [name] <+: path then none else n.kind? path := by
  induction dir generalizing n path with
  | nil =>
    cases n with
    | dir es =>
      cases path with
      | nil => rfl
      | cons s rest =>
        rw [List.nil_append, remove, kind?_cons, kind?_cons, OrderedMap.get?_erase]
        by_cases hs : name = s
        · simp [hs]
        · simp [hs, List.cons_prefix_cons]
    | _ => cases path <;> simp [remove, kind?, find?, entries, OrderedMap.get?]
  | cons d dirs ih =>
    cases n with
    | dir es =>
      cases hm : OrderedMap.get? d es with
      | none =>
        have hremove : remove ((d :: dirs) ++ [name]) (.dir es) = .dir es := by
          cases dirs <;> simp [remove, hm]
        rw [hremove]
        split
        · next hp =>
          obtain ⟨rest,rfl⟩ := hp
          simp [kind?_cons, hm]
        · rfl
      | some m =>
        have hremove : remove ((d :: dirs) ++ [name]) (.dir es) =
            .dir (OrderedMap.set d (remove (dirs ++ [name]) m) es) := by
          cases dirs <;> simp [remove, hm]
        rw [hremove]
        cases path with
        | nil => rfl
        | cons s rest =>
          rw [kind?_cons, kind?_cons, OrderedMap.get?_set]
          by_cases hs : d = s
          · subst hs
            simp [ih rest m, List.cons_prefix_cons, hm]
          · simp [hs, List.cons_prefix_cons]
    | _ => cases path <;> cases dirs <;> simp [remove, kind?, find?, entries, OrderedMap.get?]

theorem find?_put_self (new : Node) {dir : List String} {name : String} {n : Node}
    (h : n.kind? dir = some .dir) :
    (put new (dir ++ [name]) n).find? (dir ++ [name]) = some new := by
  induction dir generalizing n with
  | nil =>
    obtain ⟨es,rfl⟩ := eq_dir_of_kind (Option.some.inj h)
    simp [put, find?, entries, OrderedMap.get?_set]
  | cons d dirs ih =>
    cases n with
    | dir es =>
      rw [kind?_cons, Option.bind_eq_some_iff] at h
      obtain ⟨m,hm,hdir⟩ := h
      have hput : put new (d :: (dirs ++ [name])) (.dir es) =
          .dir (OrderedMap.set d (put new (dirs ++ [name]) m) es) := by
        cases dirs <;> simp [put, hm]
      rw [List.cons_append, hput, find?, entries, OrderedMap.get?_set, if_pos rfl, Option.bind_some]
      exact ih hdir
    | _ => simp [kind?, find?, entries, OrderedMap.get?] at h

/-- A file stays as it is when a node is put elsewhere. -/
theorem find?_put_of_file (new : Node) {target path : List String} {n : Node} {bytes : List UInt8}
    {x : Bool} (h : n.find? path = some (.file bytes x)) (hne : ¬target <+: path) :
    (put new target n).find? path = some (.file bytes x) := by
  fun_induction put new target n generalizing path with
  | case1 => exact (hne List.nil_prefix).elim
  | case2 s es =>
    cases path with
    | nil => cases h
    | cons t rest =>
      have hst : s ≠ t := fun heq => hne (List.cons_prefix_cons.mpr ⟨heq,List.nil_prefix⟩)
      rwa [find?, entries, OrderedMap.get?_set, if_neg hst]
  | case3 s rest es _ m hget ih =>
    cases path with
    | nil => cases h
    | cons t below =>
      rw [find?, entries] at h
      rw [find?, entries, OrderedMap.get?_set]
      by_cases hst : s = t
      · subst hst
        rw [hget, Option.bind_some] at h
        rw [if_pos rfl, Option.bind_some]
        exact ih h fun hp => hne (List.cons_prefix_cons.mpr ⟨rfl,hp⟩)
      · rwa [if_neg hst]
  | case4 => exact h
  | case5 => exact h

end Node

namespace FileSystem

def kind? (fs : FileSystem) (path : List String) : Option Kind := fs.root.kind? path

theorem kind?_eq (fs : FileSystem) (path : List String) :
    fs.kind? path = (fs.find? path).map Node.kind := rfl

/-- Whether an executable file stands at a path from the root. -/
def executableAt (fs : FileSystem) (path : List String) : Bool :=
  (fs.kind? path).any Kind.isExecutable

theorem executableAt_of_file {fs : FileSystem} {path : List String} {bytes : List UInt8} {x : Bool}
    (h : fs.kind? path = some (.file bytes x)) : fs.executableAt path = x := by
  rw [executableAt, h]
  rfl

theorem executableAt_of_none {fs : FileSystem} {path : List String} (h : fs.kind? path = none) :
    fs.executableAt path = false := by
  rw [executableAt, h]
  rfl

/-- A directory where nothing was is executable no more than nothing is. -/
theorem executableAt_eq {fs gs : FileSystem} {path : List String}
    (h : gs.kind? path = fs.kind? path ∨ fs.kind? path = none ∧ gs.kind? path = some .dir) :
    gs.executableAt path = fs.executableAt path := by
  rw [executableAt, executableAt]
  rcases h with hsame | ⟨hnone,hdir⟩
  · rw [hsame]
  · rw [hnone, hdir]
    rfl

theorem kind?_append (fs : FileSystem) (p q : List String) :
    fs.kind? (p ++ q) = (fs.find? p).bind (Node.kind? q) :=
  Node.kind?_append p q fs.root

/-- Nothing stands below what is not a directory. -/
theorem kind?_below {fs : FileSystem} {path rest : List String} (h : fs.kind? path ≠ some .dir)
    (hrest : rest ≠ []) : fs.kind? (path ++ rest) = none := by
  rw [kind?_append]
  rw [kind?_eq] at h
  cases hn : fs.find? path with
  | none => rfl
  | some n =>
    rw [hn] at h
    exact Node.kind?_of_leaf (fun hk => h (congrArg some hk)) hrest

/-- Whatever something stands below is a directory. -/
theorem kind?_above {fs : FileSystem} {path rest : List String} (hrest : rest ≠ [])
    (h : fs.kind? (path ++ rest) ≠ none) : fs.kind? path = some .dir :=
  Decidable.byContradiction fun hn => h (kind?_below hn hrest)

theorem kind?_put_leaf {fs : FileSystem} {dir : List String} {name : String} {new : Node}
    (hdir : fs.kind? dir = some .dir) (hold : fs.kind? (dir ++ [name]) ≠ some .dir)
    (hnew : new.entries = []) (path : List String) :
    (fs.put (dir ++ [name]) new).kind? path =
      if path = dir ++ [name] then some new.kind else fs.kind? path := by
  refine (Node.kind?_put new dir name path fs.root hdir).trans ?_
  split
  · next hp =>
    obtain ⟨rest,rfl⟩ := hp
    cases rest with
    | nil => simp [Node.kind?, Node.find?]
    | cons s rest =>
      rw [kind?_below hold (by simp), if_neg (by simp)]
      simp [Node.kind?, Node.find?, hnew, OrderedMap.get?]
  · next hp =>
    have hne : path ≠ dir ++ [name] := fun heq => hp (heq ▸ List.prefix_refl _)
    exact (if_neg hne).symm

/-- A file moves to another name in the same directory. -/
theorem kind?_move {fs : FileSystem} {dir : List String} {source target : String} {n : Node}
    {bytes : List UInt8} {x : Bool} (hdir : fs.kind? dir = some .dir)
    (hn : n.kind = .file bytes x) (hsource : fs.kind? (dir ++ [source]) = some (.file bytes x))
    (htarget : fs.kind? (dir ++ [target]) ≠ some .dir) (path : List String) :
    ((fs.remove (dir ++ [source])).put (dir ++ [target]) n).kind? path =
      if path = dir ++ [target] then some (.file bytes x)
      else if path = dir ++ [source] then none else fs.kind? path := by
  have hremove : ∀ path, (fs.remove (dir ++ [source])).kind? path =
      if path = dir ++ [source] then none else fs.kind? path := by
    intro path
    refine (Node.kind?_remove dir source path fs.root).trans ?_
    split
    · next hp =>
      obtain ⟨rest,rfl⟩ := hp
      cases rest with
      | nil => simp
      | cons s rest =>
        rw [kind?_below (by simp [hsource]) (by simp), if_neg (by simp)]
    · next hp =>
      have hne : path ≠ dir ++ [source] := fun heq => hp (heq ▸ List.prefix_refl _)
      exact (if_neg hne).symm
  rw [kind?_put_leaf, hremove, hn]
  · rw [hremove, if_neg (by simp), hdir]
  · rw [hremove]
    split
    · simp
    · exact htarget
  · cases n with
    | dir es => simp [Node.kind] at hn
    | _ => rfl

end FileSystem

end DocSnapshot
