import DocSnapshot.Proofs.FileSystem.Effect

/-! When writing succeeds: the directory is there and nothing stands in the way. -/
namespace DocSnapshot.FileSystem
open DocSnapshot.Path (isName)

/-- Whether a path from the root is one that can be asked for, and leads to a name below
directories. -/
def reaches (path : String) (dirs : List String) (name : String) : Bool :=
  partsOf path = "" :: (dirs ++ [name]) && !path.toList.contains '\x00' &&
    path.utf8ByteSize ≤ maxPath &&
    (dirs ++ [name]).all fun part => isName part && part.utf8ByteSize ≤ maxName

variable {fs : FileSystem} {follow : Bool} {links : Nat} {here : List String}

private theorem walkParts_of_dirs {dirs : List String} {name : String}
    (hnames : ∀ part ∈ dirs, isName part = true ∧ part.utf8ByteSize ≤ maxName)
    (hdir : fs.kind? (here.reverse ++ dirs) = some .dir) :
    fs.walkParts follow links here (dirs ++ [name]) =
      fs.walkParts follow links (dirs.reverse ++ here) [name] := by
  induction dirs generalizing here with
  | nil => rfl
  | cons d dirs ih =>
    obtain ⟨hname,hsize⟩ := hnames d List.mem_cons_self
    obtain ⟨hidle,hup⟩ := Path.not_idle_of_isName hname
    have hbelow : fs.kind? ((d :: here).reverse ++ dirs) = some .dir := by
      rwa [List.reverse_cons, List.append_assoc]
    have hd : fs.kind? (d :: here).reverse = some .dir := by
      cases dirs with
      | nil => rwa [List.append_nil] at hbelow
      | cons e rest => exact kind?_above (List.cons_ne_nil e rest) (hbelow ▸ Option.some_ne_none _)
    obtain ⟨es,hfind⟩ := find?_of_kind?_dir hd
    rw [List.cons_append, walkParts, if_neg hidle, if_neg hup, if_neg (Nat.not_lt.mpr hsize), hfind]
    refine (ih (fun part hpart => hnames part (List.mem_cons_of_mem _ hpart)) hbelow).trans ?_
    rw [List.reverse_cons, List.append_assoc, List.singleton_append]

/-- What a path finds when the directories on its way are there. -/
theorem resolve_of_reaches {path name : String} {dirs : List String}
    (h : reaches path dirs name = true) (hdir : fs.kind? dirs = some .dir)
    (hlink : ∀ target, fs.kind? (dirs ++ [name]) ≠ some (.link target)) :
    fs.resolve path follow = .ok (match fs.find? (dirs ++ [name]) with
      | none => .absent dirs name false
      | some n => .present (dirs ++ [name]) n) := by
  simp only [reaches, Bool.and_eq_true, decide_eq_true_eq, Bool.not_eq_true', List.all_eq_true] at h
  obtain ⟨⟨⟨hparts,hnul⟩,hlong⟩,hnames⟩ := h
  have hempty : ¬path.isEmpty = true := by
    intro hempty
    rw [String.isEmpty_iff.mp hempty] at hparts
    cases dirs <;> cases hparts
  obtain ⟨hname,hsize⟩ := hnames name (by simp)
  obtain ⟨hidle,hup⟩ := Path.not_idle_of_isName hname
  have hwalk := @walkParts_of_dirs fs follow maxLinks [] dirs name
    (fun part hpart => hnames part (List.mem_append_left _ hpart)) hdir
  rw [resolve, hnul, if_neg Bool.false_ne_true, if_neg hempty, if_neg (Nat.not_lt.mpr hlong),
    hparts, walkParts, if_pos (by simp), hwalk, walkParts, if_neg hidle, if_neg hup,
    if_neg (Nat.not_lt.mpr hsize)]
  simp only [List.append_nil, List.reverse_cons, List.reverse_reverse]
  cases hfind : fs.find? (dirs ++ [name]) with
  | none => rfl
  | some n =>
    cases n with
    | file bytes x => rfl
    | link target => exact (hlink target (kind?_of_find? hfind)).elim
    | dir es =>
      simp only [walkParts, List.reverse_cons, List.reverse_reverse, hfind]
      rfl

/-- A directory is found by its names. -/
theorem stat_of_reaches {path name : String} {dirs : List String} {es : List (String × Node)}
    (h : reaches path dirs name = true) (hdir : fs.kind? dirs = some .dir)
    (hfind : fs.find? (dirs ++ [name]) = some (.dir es)) :
    fs.stat path = .ok (dirs ++ [name], .dir es) := by
  rw [stat, resolve_of_reaches h hdir (by simp [kind?_of_find? hfind, Node.kind]), hfind]
  rfl

theorem not_exists?_of_reaches {path name : String} {dirs : List String}
    (h : reaches path dirs name = true) (hdir : fs.kind? dirs = some .dir)
    (hfree : fs.kind? (dirs ++ [name]) = none) : fs.exists? path = false := by
  rw [exists?, stat, resolve_of_reaches h hdir (by simp [hfree]), find?_of_kind?_none hfree]
  rfl

theorem write_ok {path name : String} {dirs : List String} (bytes : List UInt8)
    (h : reaches path dirs name = true) (hdir : fs.kind? dirs = some .dir)
    (hfree : fs.kind? (dirs ++ [name]) = none) :
    ∃ gs, fs.write path bytes = .ok gs ∧ ∀ p, gs.kind? p =
      if p = dirs ++ [name] then some (.file bytes false) else fs.kind? p := by
  rw [write, resolve_of_reaches h hdir (by simp [hfree]), find?_of_kind?_none hfree]
  exact ⟨_,rfl,kind?_put_leaf hdir (by simp [hfree]) rfl⟩

theorem rename_ok {source target old new : String} {dirs : List String} {bytes : List UInt8}
    {x : Bool} (hs : reaches source dirs old = true) (ht : reaches target dirs new = true)
    (hdir : fs.kind? dirs = some .dir) (hfile : fs.kind? (dirs ++ [old]) = some (.file bytes x))
    (hfree : fs.kind? (dirs ++ [new]) = none) :
    ∃ gs, fs.rename source target = .ok gs ∧ ∀ p, gs.kind? p =
      if p = dirs ++ [new] then some (.file bytes x)
      else if p = dirs ++ [old] then none else fs.kind? p := by
  rw [rename, resolve_of_reaches hs hdir (by simp [hfile]), find?_of_kind?_file hfile]
  simp only [bind, Except.bind, resolve_of_reaches ht hdir (by simp [hfree]),
    find?_of_kind?_none hfree]
  exact ⟨_,rfl,kind?_move hdir rfl hfile (by simp [hfree])⟩

/-- A directory is made, or is there. -/
theorem makeDirs_ok {path name : String} {dirs : List String} (h : reaches path dirs name = true)
    (hdir : fs.kind? dirs = some .dir)
    (hfree : fs.kind? (dirs ++ [name]) = none ∨ fs.kind? (dirs ++ [name]) = some .dir) :
    (fs.makeDirs path).2 = none ∧ ∀ p, (fs.makeDirs path).1.kind? p =
      if p = dirs ++ [name] then some .dir else fs.kind? p := by
  have hempty : ¬path.isEmpty = true := by
    intro hempty
    rw [String.isEmpty_iff.mp hempty] at h
    cases dirs <;> simp [reaches, partsOf] at h
  have hresolve : ∀ follow, fs.resolve path follow = _ := fun follow =>
    @resolve_of_reaches fs follow path name dirs h hdir (by rcases hfree with hk | hk <;> simp [hk])
  rw [makeDirs, makeDirsWithin, if_neg hempty]
  rcases hfree with hnone | hk
  · have hmake : fs.makeDir path = .ok (fs.put (dirs ++ [name]) (.dir [])) := by
      rw [makeDir, hresolve, find?_of_kind?_none hnone]
      rfl
    rw [hmake]
    exact ⟨rfl,kind?_put_leaf hdir (by simp [hnone]) rfl⟩
  · obtain ⟨es,hfind⟩ := find?_of_kind?_dir hk
    have hmake : fs.makeDir path = .error .alreadyExists := by
      rw [makeDir, hresolve, hfind]
      rfl
    have hisDir : fs.isDir path = true := by
      rw [isDir, stat, hresolve, hfind]
      rfl
    rw [hmake]
    refine ⟨if_pos hisDir,fun p => ?_⟩
    by_cases hp : p = dirs ++ [name]
    · rw [if_pos hp, hp]
      exact hk
    · rw [if_neg hp]

end DocSnapshot.FileSystem

namespace DocSnapshot
open FileSystem (reaches)
open DocSnapshot.Path (tempName)

/-- An artifact can be saved below a directory that is there or can be made, when nothing stands in
its way. -/
theorem Artifact.save_ok {fs : FileSystem} {a : Artifact} {dir : String} {above out : List String}
    {name outName : String} (hout : out = above ++ [outName])
    (hparent : Path.parent? a.path = some dir) (hdir : reaches dir above outName = true)
    (hpath : reaches a.path out name = true)
    (htemp : reaches (tempPath a.path) out (tempName name) = true)
    (habove : fs.kind? above = some .dir) (hfree : fs.kind? out = none ∨ fs.kind? out = some .dir)
    (hname : fs.kind? (out ++ [name]) = none)
    (htempName : fs.kind? (out ++ [tempName name]) = none) :
    ∃ gs, a.save fs = (gs, none) ∧ ∀ p, gs.kind? p =
      if p = out then some .dir
      else if p = out ++ [name] then some (.file (Text.Utf8.encode a.content) false)
      else fs.kind? p := by
  subst hout
  obtain ⟨hmade,hkind⟩ := FileSystem.makeDirs_ok hdir habove hfree
  obtain ⟨gs,hwrite,hkind₁⟩ := FileSystem.write_ok (Text.Utf8.encode a.content) htemp
    (by rw [hkind, if_pos rfl]) (by rw [hkind, if_neg (by simp), htempName])
  have hne : name ≠ tempName name := fun heq => Path.tempName_ne name heq.symm
  obtain ⟨hs,hrename,hkind₂⟩ := FileSystem.rename_ok htemp hpath
    (by rw [hkind₁, if_neg (by simp), hkind, if_pos rfl]) (by rw [hkind₁, if_pos rfl])
    (by rw [hkind₁, if_neg (by simpa using hne), hkind, if_neg (by simp), hname])
  refine ⟨hs,?_,fun p => ?_⟩
  · rcases hdirs : fs.makeDirs dir with ⟨made,failure⟩
    rw [hdirs] at hmade hwrite
    cases hmade
    simp [save, steps, hparent, FileStep.applyAll, FileStep.apply, hdirs, hwrite, hrename]
  · rw [hkind₂, hkind₁, hkind]
    by_cases hp : p = above ++ [outName]
    · simp [hp]
    · by_cases hpt : p = above ++ [outName] ++ [tempName name]
      · rw [hpt, htempName]
        simp [Ne.symm hne]
      · simp only [if_neg hp, if_neg hpt]

end DocSnapshot
