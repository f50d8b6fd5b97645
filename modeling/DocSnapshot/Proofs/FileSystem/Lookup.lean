import DocSnapshot.Proofs.FileSystem.Effect

/-! Looking paths up. A path may be refused for its length or its characters; any other leads to
what stands at the end of its way. -/
namespace DocSnapshot.FileSystem
open DocSnapshot.Path (isReal real names isName Leads)

/-- Why a path is refused, whatever there is. -/
def refusal? (path : String) : Option IoError :=
  if path.toList.contains '\x00' then some .nullByte
  else if maxPath < path.utf8ByteSize then some .nameTooLong
  else if (partsOf path).any (maxName < ·.utf8ByteSize) then some .nameTooLong
  else none

variable {fs gs : FileSystem} {follow : Bool} {links : Nat} {here : List String}

/-- The parts of a path that was followed to its end are not too long. -/
theorem walkParts_fits {parts : List String} {found : Found}
    (h : fs.walkParts follow links here parts = .ok found) :
    ∀ part ∈ parts, part.utf8ByteSize ≤ maxName := by
  have hidle : ∀ p : String, (p = "" || p = ".") = true → p.utf8ByteSize ≤ maxName := by
    intro p hp
    simp only [Bool.or_eq_true, decide_eq_true_eq] at hp
    rcases hp with rfl | rfl <;> decide
  fun_induction walkParts fs follow links here parts with
  | case1 => simp
  | case2 links here p rest hp ih => simpa using ⟨hidle p hp,by simpa using ih h⟩
  | case3 links here rest hp ih => simpa using ⟨by decide,by simpa using ih h⟩
  | case4 => cases h
  | case5 links here p rest hp hup hlong hfind hrest =>
    refine List.forall_mem_cons.mpr ⟨Nat.not_lt.mp hlong,fun part hpart => ?_⟩
    have hempty := List.all_eq_true.mp hrest part hpart
    exact hidle part (by simp_all)
  | case7 links here p rest hp hup hlong bytes x hfind hrest =>
    rw [List.isEmpty_iff.mp hrest]
    simpa using Nat.not_lt.mp hlong
  | case9 links here p rest hp hup hlong es hfind ih =>
    exact List.forall_mem_cons.mpr ⟨Nat.not_lt.mp hlong,ih h⟩
  | case10 links here p rest hp hup hlong target hfind hrest =>
    rw [List.isEmpty_iff.mp (Bool.and_eq_true_iff.mp hrest).1]
    simpa using Nat.not_lt.mp hlong
  | case12 here p rest hp hup hlong target hfind hrest n ih =>
    refine List.forall_mem_cons.mpr ⟨Nat.not_lt.mp hlong,fun part hpart => ?_⟩
    exact ih h part (List.mem_append_right _ hpart)
  | _ => cases h

theorem refusal?_eq_none {path : String} : refusal? path = none ↔
    path.toList.contains '\x00' = false ∧ path.utf8ByteSize ≤ maxPath ∧
      ∀ part ∈ partsOf path, part.utf8ByteSize ≤ maxName := by
  rw [refusal?]
  cases path.toList.contains '\x00' with
  | true => simp
  | false =>
    rw [if_neg Bool.false_ne_true]
    split
    · next hlong => simp [Nat.not_le.mpr hlong]
    · next hshort => simp [Nat.not_lt.mp hshort]

theorem refusal?_of_resolve {path : String} {found : Found}
    (h : fs.resolve path follow = .ok found) : refusal? path = none := by
  have hfits := walkParts_fits (walkParts_of_resolve h)
  rw [resolve] at h
  rw [refusal?_eq_none]
  split at h
  · cases h
  · next hnul =>
    split at h
    · cases h
    · split at h
      · cases h
      · next hshort => exact ⟨by simpa using hnul,Nat.not_lt.mp hshort,hfits⟩

theorem refusal?_of_write {path : String} {bytes : List UInt8}
    (h : fs.write path bytes = .ok gs) : refusal? path = none := by
  rw [write] at h
  cases hfound : fs.resolve path true with
  | error e => rw [hfound] at h; cases h
  | ok found => exact refusal?_of_resolve hfound

theorem refusal?_of_rename {source target : String} (h : fs.rename source target = .ok gs) :
    refusal? target = none := by
  rw [rename] at h
  cases hsource : fs.resolve source false with
  | error e => rw [hsource] at h; cases h
  | ok found =>
    rw [hsource] at h
    cases found with
    | absent dir name trailing => cases h
    | present p n =>
      cases hfound : fs.resolve target false with
      | error e => simp only [hfound] at h; cases h
      | ok found => exact refusal?_of_resolve hfound

private theorem sound_of_prefix {path start : String} (h : start.toList <+: path.toList)
    (hnul : path.toList.contains '\x00' = false) (hlong : path.utf8ByteSize ≤ maxPath) :
    start.toList.contains '\x00' = false ∧ start.utf8ByteSize ≤ maxPath := by
  obtain ⟨rest,hrest⟩ := h
  have hpath : path = start ++ String.ofList rest := by
    rw [← String.toList_inj, String.toList_append, String.toList_ofList, hrest]
  constructor
  · rw [← hrest, List.contains_eq_mem, decide_eq_false_iff_not] at hnul
    rw [List.contains_eq_mem, decide_eq_false_iff_not]
    exact fun hmem => hnul (List.mem_append_left _ hmem)
  · rw [hpath, String.utf8ByteSize_append] at hlong
    omega

/-- Whoever may ask for a path may ask for its parent. -/
theorem refusal?_parent? {path dir : String} (h : refusal? path = none)
    (hdir : Path.parent? path = some dir) : refusal? dir = none := by
  rw [refusal?_eq_none] at h ⊢
  obtain ⟨hnul,hlong,hparts⟩ := h
  obtain ⟨hnul',hlong'⟩ := sound_of_prefix (Path.prefix_of_parent? hdir) hnul hlong
  refine ⟨hnul',hlong',fun part hpart => ?_⟩
  by_cases hreal : isReal part = true
  · have hmem : part ∈ names dir := List.mem_filter.mpr ⟨hpart,hreal⟩
    rw [Path.names_parent? hdir] at hmem
    exact hparts part (List.mem_filter.mp (List.dropLast_subset _ hmem)).1
  · simp only [isReal, Bool.not_eq_true', Bool.not_eq_false, Bool.or_eq_true, decide_eq_true_eq]
      at hreal
    rcases hreal with rfl | rfl <;> decide

/-- Whoever may ask for a path may ask for the one that it was joined to. -/
theorem refusal?_of_join {base path : String} (habs : Path.isAbsolute path = false)
    (h : refusal? (Path.join base path) = none) : refusal? base = none := by
  rw [refusal?_eq_none] at h ⊢
  obtain ⟨hnul,hlong,hparts⟩ := h
  obtain ⟨hnul',hlong'⟩ := sound_of_prefix (Path.prefix_join base habs) hnul hlong
  refine ⟨hnul',hlong',fun part hpart => ?_⟩
  obtain ⟨above,hjoin,⟨rfl,-⟩ | rfl | hbase⟩ := Path.partsOf_join_cases base habs
  · obtain rfl : part = "" := List.mem_singleton.mp hpart
    decide
  · exact hparts part (hjoin ▸ List.mem_append_left _ hpart)
  · rw [hbase, List.mem_append, List.mem_singleton] at hpart
    rcases hpart with hpart | rfl
    · exact hparts part (hjoin ▸ List.mem_append_left _ hpart)
    · decide

private theorem walkParts_through {parts p : List String} {es : List (String × Node)}
    (h : fs.walkParts true links here parts = .ok (.present p (.dir es))) :
    ∃ n, ∀ rest, fs.walkParts true links here (parts ++ rest) =
      fs.walkParts true n p.reverse rest := by
  fun_induction walkParts fs true links here parts with
  | case1 links here =>
    injection h with h
    injection h with h
    exact ⟨links,fun rest => by rw [← h, List.reverse_reverse, List.nil_append]⟩
  | case2 links here p rest hp ih =>
    obtain ⟨n,hn⟩ := ih h
    exact ⟨n,fun rest' => by rw [List.cons_append, walkParts, if_pos hp, hn]⟩
  | case3 links here rest hp ih =>
    obtain ⟨n,hn⟩ := ih h
    exact ⟨n,fun rest' => by rw [List.cons_append, walkParts, if_neg hp, if_pos rfl, hn]⟩
  | case9 links here p rest hp hup hlong es hfind ih =>
    obtain ⟨n,hn⟩ := ih h
    refine ⟨n,fun rest' => ?_⟩
    rw [List.cons_append, walkParts, if_neg hp, if_neg hup, if_neg hlong, hfind]
    exact hn rest'
  | case12 here p rest hp hup hlong target hfind hrest n ih =>
    obtain ⟨n',hn⟩ := ih h
    refine ⟨n',fun rest' => ?_⟩
    rw [List.cons_append, walkParts, if_neg hp, if_neg hup, if_neg hlong, hfind]
    simp only [Bool.not_true, Bool.and_false, Bool.false_eq_true, if_false]
    rw [← List.append_assoc]
    exact hn rest'
  | _ => cases h

private theorem walkParts_slash {parts rest : List String} (hrest : rest.all (· = "") = false) :
    fs.walkParts follow links here (parts ++ "" :: rest) =
      fs.walkParts follow links here (parts ++ rest) := by
  have hne : ∀ xs : List String, (xs ++ rest).isEmpty = false := by
    intro xs
    cases rest with
    | nil => simp at hrest
    | cons => simp
  have hne' : ∀ xs : List String, (xs ++ "" :: rest).isEmpty = false := by simp
  have hall : ∀ xs : List String, (xs ++ rest).all (· = "") = false := by simp [hrest]
  have hall' : ∀ xs : List String, (xs ++ "" :: rest).all (· = "") = false := by simp [hrest]
  fun_induction trace fs false links here parts with
  | case1 links here => simp [walkParts]
  | case2 links here p parts hp ih => simpa only [List.cons_append, walkParts, if_pos hp] using ih
  | case3 links here parts hp ih =>
    simpa only [List.cons_append, walkParts, if_neg hp, if_pos] using ih
  | case4 links here p parts hp hup hk ih =>
    obtain ⟨es,hfind⟩ := find?_of_kind?_dir hk
    simp only [List.cons_append, walkParts, if_neg hp, if_neg hup, hfind, ih]
  | case5 links here p parts hp hup bytes x hk =>
    simp only [List.cons_append, walkParts, if_neg hp, if_neg hup, find?_of_kind?_file hk, hne,
      hne']
  | case6 here p parts hp hup target hk =>
    simp only [List.cons_append, walkParts, if_neg hp, if_neg hup, find?_of_kind?_link hk, hne,
      hne']
  | case7 here p parts hp hup target hk n ih =>
    rw [List.append_assoc, List.append_assoc] at ih
    simp only [List.cons_append, walkParts, if_neg hp, if_neg hup, find?_of_kind?_link hk, hne,
      hne']
    exact congrArg _ ih
  | case8 links here p parts hp hup hk hmade => simp at hmade
  | case9 links here p parts hp hup hk hmade =>
    simp only [List.cons_append, walkParts, if_neg hp, if_neg hup, find?_of_kind?_none hk, hall,
      hall']
    rfl

private theorem walkParts_file {parts : List String} {bytes : List UInt8} {x : Bool}
    (hne : parts ≠ []) (hnames : ∀ part ∈ parts, isName part = true)
    (hfile : fs.kind? (here.reverse ++ parts) = some (.file bytes x)) :
    fs.walkParts follow links here parts =
      if parts.any (maxName < ·.utf8ByteSize) then .error .nameTooLong
      else .ok (.present (here.reverse ++ parts) (.file bytes x)) := by
  induction parts generalizing here with
  | nil => exact (hne rfl).elim
  | cons p rest ih =>
    obtain ⟨hidle,hup⟩ := Path.not_idle_of_isName (hnames p List.mem_cons_self)
    have hnames := fun part hpart => hnames part (List.mem_cons_of_mem p hpart)
    have hshift : here.reverse ++ p :: rest = (p :: here).reverse ++ rest := by simp
    rw [walkParts, if_neg hidle, if_neg hup]
    by_cases hlong : maxName < p.utf8ByteSize
    · simp [hlong]
    · rw [List.any_cons, decide_eq_false hlong, Bool.false_or, if_neg hlong]
      rw [hshift] at hfile ⊢
      cases rest with
      | nil =>
        rw [List.append_nil] at hfile ⊢
        rw [find?_of_kind?_file hfile]
        rfl
      | cons q rest =>
        obtain ⟨es,hfind⟩ := find?_of_kind?_dir
          (kind?_above (List.cons_ne_nil q rest) (hfile ▸ Option.some_ne_none _))
        rw [hfind]
        exact ih (List.cons_ne_nil q rest) hnames hfile

section
variable {root source : String} {dir : List String} {es : List (String × Node)}

private theorem join_not_empty (hnames : ∀ part ∈ partsOf source, isName part = true) :
    (Path.join root source).isEmpty = false := by
  obtain ⟨dirs,name,hparts⟩ :=
    (List.eq_nil_or_concat (partsOf source)).resolve_left (Path.partsOf_ne_nil source)
  rw [List.concat_eq_append] at hparts
  obtain ⟨above,hjoin,-⟩ :=
    Path.partsOf_join_cases root (Path.isAbsolute_of_names hparts (hparts ▸ hnames))
  rw [Bool.eq_false_iff]
  intro hempty
  have hlast : [] ++ [""] = above ++ dirs ++ [name] := by
    rw [List.append_assoc, ← hparts, ← hjoin, String.isEmpty_iff.mp hempty]
    rfl
  obtain rfl := List.singleton_inj.mp (List.append_inj_right' hlast rfl)
  exact absurd (hnames "" (by simp [hparts])) (by decide)

private theorem walkParts_join (hstat : fs.stat root = .ok (dir, .dir es))
    (hnames : ∀ part ∈ partsOf source, isName part = true) :
    (∃ n, fs.walkParts true maxLinks [] (partsOf (Path.join root source)) =
      fs.walkParts true n dir.reverse (partsOf source)) ∧
    (partsOf (Path.join root source)).any (maxName < ·.utf8ByteSize) =
      (partsOf source).any (maxName < ·.utf8ByteSize) := by
  obtain ⟨dirs,name,hparts⟩ :=
    (List.eq_nil_or_concat (partsOf source)).resolve_left (Path.partsOf_ne_nil source)
  rw [List.concat_eq_append] at hparts
  have hresolve := resolve_of_stat hstat
  have hroot : root ≠ "" := by
    rintro rfl
    cases hresolve
  have hwalk := walkParts_of_resolve hresolve
  have hfits := walkParts_fits hwalk
  obtain ⟨n,hn⟩ := walkParts_through hwalk
  have hreal : (partsOf source).all (· = "") = false := by
    obtain ⟨hidle,-⟩ := Path.not_idle_of_isName (hnames name (by simp [hparts]))
    rw [hparts, List.all_append]
    simp_all
  obtain ⟨above,hjoin,hcases⟩ :=
    Path.partsOf_join_cases root (Path.isAbsolute_of_names hparts (hparts ▸ hnames))
  rcases hcases with ⟨hempty,-⟩ | rfl | habove
  · exact (hroot hempty).elim
  -- the root ends with a slash or it does not
  · have hshort : (partsOf root).any (maxName < ·.utf8ByteSize) = false := by simpa using hfits
    rw [hjoin, List.any_append, hshort]
    exact ⟨⟨n,hn _⟩,rfl⟩
  · have hshort : above.any (maxName < ·.utf8ByteSize) = false := by
      rw [habove] at hfits
      simpa using fun part hpart => hfits part (List.mem_append_left _ hpart)
    rw [hjoin, List.any_append, hshort]
    refine ⟨⟨n,?_⟩,rfl⟩
    rw [← hn, habove, List.append_assoc, List.singleton_append, walkParts_slash hreal]

/-- A file below a directory can be read unless its path is refused. -/
theorem read_below {bytes : List UInt8} {x : Bool} (hstat : fs.stat root = .ok (dir, .dir es))
    (hnames : ∀ part ∈ partsOf source, isName part = true)
    (hfile : fs.kind? (dir ++ partsOf source) = some (.file bytes x)) :
    fs.read (Path.join root source) = match refusal? (Path.join root source) with
      | some e => .error e
      | none => .ok bytes := by
  obtain ⟨⟨n,hthrough⟩,hany⟩ := walkParts_join hstat hnames
  have hend := @walkParts_file fs true n dir.reverse (partsOf source) bytes x
    (Path.partsOf_ne_nil source) hnames (by rwa [List.reverse_reverse])
  rw [read, stat, resolve, refusal?, hthrough, hany, join_not_empty hnames,
    if_neg Bool.false_ne_true, hend]
  split
  · rfl
  · split
    · rfl
    · split <;> rfl

end

end DocSnapshot.FileSystem
