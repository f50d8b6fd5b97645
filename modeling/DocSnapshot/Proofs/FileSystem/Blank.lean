import DocSnapshot.FileSystem.Artifact

/-! Whether a file operation succeeds, and what it does to the tree of files, does not depend on
what the files hold: every operation commutes with emptying them all. -/
namespace DocSnapshot

namespace OrderedMap

variable {α β : Type}

def mapValues (f : α → β) (entries : List (String × α)) : List (String × β) :=
  entries.map fun (k, a) => (k, f a)

theorem get?_mapValues (f : α → β) (key : String) (entries : List (String × α)) :
    get? key (mapValues f entries) = (get? key entries).map f := by
  induction entries with
  | nil => rfl
  | cons e rest ih =>
    simp only [mapValues, List.map_cons, get?]
    split
    · rfl
    · exact ih

theorem set_mapValues (f : α → β) (key : String) (a : α) (entries : List (String × α)) :
    set key (f a) (mapValues f entries) = mapValues f (set key a entries) := by
  induction entries with
  | nil => rfl
  | cons e rest ih =>
    simp only [mapValues, List.map_cons, set]
    split
    · rfl
    · split
      · rfl
      · exact congrArg _ ih

theorem erase_mapValues (f : α → β) (key : String) (entries : List (String × α)) :
    erase key (mapValues f entries) = mapValues f (erase key entries) := by
  simp only [erase, mapValues, List.filter_map]
  rfl

end OrderedMap

namespace Node

mutual
def blank : Node → Node
  | .file _ x => .file [] x
  | .link target => .link target
  | .dir es => .dir (blankAll es)

def blankAll : List (String × Node) → List (String × Node)
  | [] => []
  | (name, n) :: rest => (name, n.blank) :: blankAll rest
end

private theorem blankAll_eq (es : List (String × Node)) :
    blankAll es = OrderedMap.mapValues blank es := by
  induction es with
  | nil => rfl
  | cons e rest ih => simp [blankAll, ih, OrderedMap.mapValues]

@[simp] theorem blank_dir (es : List (String × Node)) :
    (Node.dir es).blank = .dir (OrderedMap.mapValues blank es) := by
  rw [blank, blankAll_eq]

@[simp] theorem isDir_blank (n : Node) : n.blank.isDir = n.isDir := by
  cases n <;> simp [blank, isDir]

private theorem entries_blank (n : Node) :
    n.blank.entries = OrderedMap.mapValues blank n.entries := by
  cases n with
  | dir es => rw [blank_dir]; rfl
  | file bytes x => rfl
  | link target => rfl

theorem find?_blank (path : List String) (n : Node) :
    n.blank.find? path = (n.find? path).map blank := by
  induction path generalizing n with
  | nil => rfl
  | cons s rest ih =>
    simp only [find?, entries_blank, OrderedMap.get?_mapValues, Option.bind_map, Option.map_bind]
    congr 1
    funext m
    exact ih m

theorem put_blank (new : Node) (path : List String) (n : Node) :
    put new.blank path n.blank = (put new path n).blank := by
  induction path generalizing n with
  | nil => rfl
  | cons s rest ih =>
    cases n with
    | file bytes x => cases rest <;> rfl
    | link target => cases rest <;> rfl
    | dir es =>
      cases rest with
      | nil => simp [put, OrderedMap.set_mapValues]
      | cons t rest =>
        simp only [blank_dir, put, OrderedMap.get?_mapValues]
        cases OrderedMap.get? s es with
        | none => simp
        | some m => simp [ih m, OrderedMap.set_mapValues]

theorem remove_blank (path : List String) (n : Node) :
    remove path n.blank = (remove path n).blank := by
  induction path generalizing n with
  | nil => cases n <;> rfl
  | cons s rest ih =>
    cases n with
    | file bytes x => cases rest <;> rfl
    | link target => cases rest <;> rfl
    | dir es =>
      cases rest with
      | nil => simp [remove, OrderedMap.erase_mapValues]
      | cons t rest =>
        simp only [blank_dir, remove, OrderedMap.get?_mapValues]
        cases OrderedMap.get? s es with
        | none => simp
        | some m => simp [ih m, OrderedMap.set_mapValues]

end Node

namespace FileSystem

def blank (fs : FileSystem) : FileSystem := ⟨fs.root.blank⟩

def Found.blank : Found → Found
  | .present path n => .present path n.blank
  | .absent dir name trailing => .absent dir name trailing

private theorem find?_blank (fs : FileSystem) (path : List String) :
    fs.blank.find? path = (fs.find? path).map Node.blank :=
  Node.find?_blank path fs.root

private theorem put_blank (fs : FileSystem) (path : List String) (n : Node) :
    fs.blank.put path n.blank = (fs.put path n).blank :=
  congrArg FileSystem.mk (Node.put_blank n path fs.root)

private theorem remove_blank (fs : FileSystem) (path : List String) :
    fs.blank.remove path = (fs.remove path).blank :=
  congrArg FileSystem.mk (Node.remove_blank path fs.root)

private theorem walkParts_blank (fs : FileSystem) (follow : Bool) (links : Nat)
    (here parts : List String) :
    walkParts fs.blank follow links here parts =
      (walkParts fs follow links here parts).map Found.blank := by
  fun_induction walkParts fs follow links here parts with
  | case1 links here =>
    rw [walkParts, find?_blank]
    cases fs.find? here.reverse <;> simp [Except.map, Found.blank, OrderedMap.mapValues]
  | case2 links here p rest h ih => rw [walkParts, if_pos h, ih]
  | case3 links here rest h ih => rw [walkParts, if_neg h, if_pos rfl, ih]
  | case4 links here p rest h hp hlong => rw [walkParts, if_neg h, if_neg hp, if_pos hlong]; rfl
  | case5 links here p rest h hp hlong hfind hrest =>
    rw [walkParts, if_neg h, if_neg hp, if_neg hlong, find?_blank, hfind]
    exact if_pos hrest
  | case6 links here p rest h hp hlong hfind hrest =>
    rw [walkParts, if_neg h, if_neg hp, if_neg hlong, find?_blank, hfind]
    exact if_neg hrest
  | case7 links here p rest h hp hlong bytes x hfind hrest =>
    rw [walkParts, if_neg h, if_neg hp, if_neg hlong, find?_blank, hfind]
    exact if_pos hrest
  | case8 links here p rest h hp hlong bytes x hfind hrest =>
    rw [walkParts, if_neg h, if_neg hp, if_neg hlong, find?_blank, hfind]
    exact if_neg hrest
  | case9 links here p rest h hp hlong es hfind ih =>
    rw [walkParts, if_neg h, if_neg hp, if_neg hlong, find?_blank, hfind]
    exact ih
  | case10 links here p rest h hp hlong target hfind hrest =>
    rw [walkParts, if_neg h, if_neg hp, if_neg hlong, find?_blank, hfind]
    exact if_pos hrest
  | case11 here p rest h hp hlong target hfind hrest =>
    rw [walkParts, if_neg h, if_neg hp, if_neg hlong, find?_blank, hfind]
    exact if_neg hrest
  | case12 here p rest h hp hlong target hfind hrest n ih =>
    rw [walkParts, if_neg h, if_neg hp, if_neg hlong, find?_blank, hfind]
    exact (if_neg hrest).trans ih

private theorem resolve_blank (fs : FileSystem) (path : String) (follow : Bool) :
    fs.blank.resolve path follow = (fs.resolve path follow).map Found.blank := by
  unfold resolve
  split
  · rfl
  · split
    · rfl
    · split
      · rfl
      · exact walkParts_blank ..

private theorem isDir_blank (fs : FileSystem) (path : String) :
    fs.blank.isDir path = fs.isDir path := by
  simp only [isDir, stat, resolve_blank]
  rcases fs.resolve path true with e | (⟨p,n⟩ | ⟨dir,name,trailing⟩)
  · rfl
  · exact Node.isDir_blank n
  · rfl

theorem write_blank (fs : FileSystem) (path : String) (bytes : List UInt8) :
    fs.blank.write path [] = (fs.write path bytes).map blank := by
  simp only [write, resolve_blank]
  rcases fs.resolve path true with e | (⟨p,n⟩ | ⟨dir,name,trailing⟩)
  · rfl
  · cases n with
    | file old x => exact congrArg Except.ok (put_blank fs p (.file bytes x))
    | link target => rfl
    | dir es => rfl
  · cases trailing with
    | false => exact congrArg Except.ok (put_blank fs (dir ++ [name]) (.file bytes false))
    | true => rfl

private theorem makeDir_blank (fs : FileSystem) (path : String) :
    fs.blank.makeDir path = (fs.makeDir path).map blank := by
  simp only [makeDir, resolve_blank]
  rcases fs.resolve path false with e | (⟨p,n⟩ | ⟨dir,name,trailing⟩)
  · rfl
  · rfl
  · exact congrArg Except.ok (put_blank fs (dir ++ [name]) (.dir []))

private theorem ensureDir_blank (fs : FileSystem) (path : String) :
    ensureDir fs.blank path = (ensureDir fs path).map blank := by
  simp only [ensureDir, makeDir_blank, isDir_blank]
  cases fs.makeDir path with
  | ok fs => rfl
  | error e => cases h : fs.isDir path <;> rfl

private theorem makeDirsWithin_blank (fs : FileSystem) (path : String) (n : Nat) :
    makeDirsWithin fs.blank path n =
      ((makeDirsWithin fs path n).1.blank, (makeDirsWithin fs path n).2) := by
  induction n generalizing path with
  | zero => rfl
  | succ n ih =>
    simp only [makeDirsWithin, makeDir_blank, isDir_blank]
    split
    · rfl
    · cases fs.makeDir path with
      | ok fs => rfl
      | error e =>
        cases e with
        | notFound =>
          cases Path.parent? path with
          | none => rfl
          | some parent =>
            simp only [Except.map, ih parent]
            rcases makeDirsWithin fs parent n with ⟨made,_ | e⟩
            · simp only [ensureDir_blank]
              cases ensureDir made path <;> rfl
            · rfl
        | _ => rfl

theorem makeDirs_blank (fs : FileSystem) (path : String) :
    fs.blank.makeDirs path = ((fs.makeDirs path).1.blank, (fs.makeDirs path).2) :=
  makeDirsWithin_blank ..

private theorem mayReplace_blank (new old : Node) :
    mayReplace new.blank old.blank = mayReplace new old := by
  rcases new with _ | _ | _ <;> rcases old with _ | _ | _ | _ <;> rfl

theorem rename_blank (fs : FileSystem) (source target : String) :
    fs.blank.rename source target = (fs.rename source target).map blank := by
  simp only [rename, resolve_blank]
  rcases fs.resolve source false with e | (⟨p,n⟩ | ⟨dir,name,trailing⟩)
  · rfl
  · rcases fs.resolve target false with e | (⟨q,old⟩ | ⟨dir,name,trailing⟩)
    · rfl
    · have hmoved := put_blank (fs.remove p) q n
      rw [← remove_blank] at hmoved
      change (if p = q then Except.ok fs.blank else
          (mayReplace n.blank old.blank).bind fun _ => .ok ((fs.blank.remove p).put q n.blank)) =
        Except.map blank (if p = q then .ok fs else
          (mayReplace n old).bind fun _ => .ok ((fs.remove p).put q n))
      rw [mayReplace_blank, hmoved]
      split
      · rfl
      · cases mayReplace n old <;> rfl
    · have hmoved := put_blank (fs.remove p) (dir ++ [name]) n
      rw [← remove_blank] at hmoved
      change (if (trailing && !n.blank.isDir) = true then Except.error IoError.notDirectory else
          .ok ((fs.blank.remove p).put (dir ++ [name]) n.blank)) =
        Except.map blank (if (trailing && !n.isDir) = true then .error IoError.notDirectory else
          .ok ((fs.remove p).put (dir ++ [name]) n))
      rw [Node.isDir_blank, hmoved]
      split <;> rfl
  · rfl

end FileSystem

namespace FileStep

def blank : FileStep → FileStep
  | .write path _ => .write path []
  | step => step

private theorem apply_blank (fs : FileSystem) (step : FileStep) :
    step.blank.apply fs.blank = ((step.apply fs).1.blank, (step.apply fs).2) := by
  cases step with
  | makeDirs path => exact fs.makeDirs_blank path
  | write path bytes =>
    simp only [blank, apply, fs.write_blank path bytes]
    cases fs.write path bytes <;> rfl
  | rename source target =>
    simp only [blank, apply, fs.rename_blank source target]
    cases fs.rename source target <;> rfl

private theorem applyAll_blank (fs : FileSystem) (steps : List FileStep) :
    applyAll fs.blank (steps.map blank) = ((applyAll fs steps).1.blank, (applyAll fs steps).2) := by
  induction steps generalizing fs with
  | nil => rfl
  | cons step rest ih =>
    simp only [List.map_cons, applyAll, apply_blank]
    rcases step.apply fs with ⟨after,_ | e⟩
    · exact ih after
    · rfl

end FileStep

/-- Saving other content at the same path, in a file system that differs in what its files hold,
ends in the same way and leaves the same tree. -/
theorem Artifact.save_alike {a b : Artifact} {fs gs : FileSystem} (hpath : a.path = b.path)
    (h : fs.blank = gs.blank) :
    (a.save fs).2 = (b.save gs).2 ∧ (a.save fs).1.blank = (b.save gs).1.blank := by
  have hsteps : a.steps.map FileStep.blank = b.steps.map FileStep.blank := by
    simp only [steps, hpath, List.map_append, List.map_cons, FileStep.blank]
  have ha := FileStep.applyAll_blank fs a.steps
  have hb := FileStep.applyAll_blank gs b.steps
  rw [hsteps, h, hb] at ha
  exact ⟨(congrArg Prod.snd ha).symm,(congrArg Prod.fst ha).symm⟩

end DocSnapshot
