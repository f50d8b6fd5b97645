import DocSnapshot.Proofs.FileSystem.Place

/-! What making directories, writing and renaming do to the kinds of a file system. -/
namespace DocSnapshot.FileSystem
open DocSnapshot.Path (isReal real names isName Leads)

variable {fs gs : FileSystem} {follow : Bool} {links : Nat} {here : List String}

theorem kind?_of_find? {path : List String} {n : Node} (h : fs.find? path = some n) :
    fs.kind? path = some n.kind := by
  rw [kind?_eq, h]
  rfl

theorem find?_of_kind?_none {path : List String} (h : fs.kind? path = none) :
    fs.find? path = none := by
  rwa [kind?_eq, Option.map_eq_none_iff] at h

theorem find?_of_kind?_dir {path : List String} (h : fs.kind? path = some .dir) :
    ∃ es, fs.find? path = some (.dir es) := by
  rw [kind?_eq, Option.map_eq_some_iff] at h
  obtain ⟨n,hn,hk⟩ := h
  cases n with
  | dir es => exact ⟨es,hn⟩
  | _ => simp [Node.kind] at hk

theorem find?_of_kind?_file {path : List String} {bytes : List UInt8} {x : Bool}
    (h : fs.kind? path = some (.file bytes x)) : fs.find? path = some (.file bytes x) := by
  rw [kind?_eq, Option.map_eq_some_iff] at h
  obtain ⟨n,hn,hk⟩ := h
  cases n with
  | file b y => cases hk; exact hn
  | _ => simp [Node.kind] at hk

theorem find?_of_kind?_link {path : List String} {target : String}
    (h : fs.kind? path = some (.link target)) : fs.find? path = some (.link target) := by
  rw [kind?_eq, Option.map_eq_some_iff] at h
  obtain ⟨n,hn,hk⟩ := h
  cases n with
  | link t => cases hk; exact hn
  | _ => simp [Node.kind] at hk

/-- A walk that goes on goes through directories that are there. -/
theorem walkParts_append {above later : List String} {found : Found}
    (hlater : later.all (· = "") = false)
    (h : fs.walkParts follow links here (above ++ later) = .ok found) :
    ∃ r, fs.trace false links here above = some r ∧
      fs.walkParts follow r.1 r.2 later = .ok found := by
  have hempty : ∀ xs : List String, (xs ++ later).isEmpty = false := by
    intro xs
    cases later with
    | nil => simp at hlater
    | cons => simp
  fun_induction trace fs false links here above with
  | case1 links here => exact ⟨_,rfl,h⟩
  | case2 links here p rest hidle ih =>
    rw [List.cons_append, walkParts, if_pos hidle] at h
    exact ih h
  | case3 links here rest hidle ih =>
    rw [List.cons_append, walkParts, if_neg hidle, if_pos rfl] at h
    exact ih h
  | case4 links here p rest hidle hp hk ih =>
    obtain ⟨es,hfind⟩ := find?_of_kind?_dir hk
    rw [List.cons_append, walkParts, if_neg hidle, if_neg hp, hfind] at h
    split at h
    · cases h
    · exact ih h
  | case5 links here p rest hidle hp bytes x hk =>
    rw [List.cons_append, walkParts, if_neg hidle, if_neg hp, find?_of_kind?_file hk] at h
    split at h
    · cases h
    · simp [hempty] at h
  | case6 here p rest hidle hp target hk =>
    rw [List.cons_append, walkParts, if_neg hidle, if_neg hp, find?_of_kind?_link hk] at h
    split at h
    · cases h
    · simp [hempty] at h
  | case7 here p rest hidle hp target hk n ih =>
    rw [List.cons_append, walkParts, if_neg hidle, if_neg hp, find?_of_kind?_link hk] at h
    split at h
    · cases h
    · have hrest : ¬((rest ++ later).isEmpty && !follow) = true := by simp [hempty]
      rw [List.append_assoc] at ih
      exact ih ((if_neg hrest).symm.trans h)
  | case8 links here p rest hidle hp hk hmade ih => simp at hmade
  | case9 links here p rest hidle hp hk hmade =>
    rw [List.cons_append, walkParts, if_neg hidle, if_neg hp, find?_of_kind?_none hk] at h
    have hall : (rest ++ later).all (· = "") = false := by simp [hlater]
    split at h
    · cases h
    · simp [hall] at h

/-- What a walk finds at a name: nothing, or what stands there. -/
theorem walkParts_name {name : String} {found : Found} (hname : isName name = true)
    (hlink : follow = true → ∀ target, fs.kind? (here.reverse ++ [name]) ≠ some (.link target))
    (h : fs.walkParts follow links here [name] = .ok found) :
    (fs.find? (here.reverse ++ [name]) = none ∧ found = .absent here.reverse name false) ∨
      ∃ n, fs.find? (here.reverse ++ [name]) = some n ∧
        found = .present (here.reverse ++ [name]) n := by
  obtain ⟨hidle,hup⟩ := Path.not_idle_of_isName hname
  rw [walkParts, if_neg hidle, if_neg hup] at h
  split at h
  · cases h
  · rw [List.reverse_cons] at h
    cases hfind : fs.find? (here.reverse ++ [name]) with
    | none =>
      rw [hfind] at h
      exact .inl ⟨rfl,(Except.ok.inj h).symm⟩
    | some n =>
      rw [hfind] at h
      refine .inr ⟨n,rfl,?_⟩
      cases n with
      | file bytes x => exact (Except.ok.inj h).symm
      | dir es =>
        simp only [walkParts, List.reverse_cons, hfind] at h
        exact (Except.ok.inj h).symm
      | link target =>
        cases follow with
        | true => exact (hlink rfl target (kind?_of_find? hfind)).elim
        | false => exact (Except.ok.inj h).symm

theorem walkParts_of_resolve {path : String} {found : Found}
    (h : fs.resolve path follow = .ok found) :
    fs.walkParts follow maxLinks [] (partsOf path) = .ok found := by
  rw [resolve] at h
  split at h
  · cases h
  · split at h
    · cases h
    · split at h
      · cases h
      · exact h

/-- What a path finds that ends with a name. -/
theorem resolve_leads {path name : String} {dirs : List String} {found : Found}
    (hpath : Leads path dirs name) (hname : isName name = true)
    (hlink : follow = true → ∀ r target, fs.trace false maxLinks [] dirs = some r →
      fs.kind? (r.2.reverse ++ [name]) ≠ some (.link target))
    (h : fs.resolve path follow = .ok found) :
    ∃ r, fs.trace false maxLinks [] dirs = some r ∧
      ((fs.find? (r.2.reverse ++ [name]) = none ∧ found = .absent r.2.reverse name false) ∨
        ∃ n, fs.find? (r.2.reverse ++ [name]) = some n ∧
          found = .present (r.2.reverse ++ [name]) n) := by
  obtain ⟨above,hparts,rfl⟩ := hpath
  have hempty : name ≠ "" := by
    rintro rfl
    simp [isName, isReal] at hname
  have hwalk := walkParts_of_resolve h
  rw [hparts] at hwalk
  obtain ⟨r,hr,hwalk⟩ := walkParts_append (by simpa using hempty) hwalk
  rw [← trace_real] at hr
  exact ⟨r,hr,walkParts_name hname (fun hf target => hlink hf r target hr) hwalk⟩

/-- Writing a file changes what stands at its path and nothing else. A file that was executable
stays so. -/
theorem write_effect {path name : String} {dirs : List String} {bytes : List UInt8}
    (hroot : fs.kind? [] = some .dir) (hpath : Leads path dirs name) (hname : isName name = true)
    (hlink : ∀ r target, fs.trace false maxLinks [] dirs = some r →
      fs.kind? (r.2.reverse ++ [name]) ≠ some (.link target))
    (h : fs.write path bytes = .ok gs) :
    ∃ r, fs.trace false maxLinks [] dirs = some r ∧
      fs.kind? (r.2.reverse ++ [name]) ≠ some .dir ∧
      ∀ p, gs.kind? p = if p = r.2.reverse ++ [name] then
        some (.file bytes (fs.executableAt (r.2.reverse ++ [name]))) else fs.kind? p := by
  rw [write] at h
  cases hfound : fs.resolve path true with
  | error e => rw [hfound] at h; cases h
  | ok found =>
    rw [hfound] at h
    obtain ⟨r,hr,hcases⟩ := resolve_leads hpath hname (fun _ => hlink) hfound
    have hdir := kind?_of_trace hroot hr hroot
    refine ⟨r,hr,?_⟩
    rcases hcases with ⟨hnone,rfl⟩ | ⟨n,hn,rfl⟩
    · have hfree : fs.kind? (r.2.reverse ++ [name]) = none := by rw [kind?_eq, hnone]; rfl
      have hold : fs.kind? (r.2.reverse ++ [name]) ≠ some .dir := by simp [hfree]
      cases h
      rw [executableAt_of_none hfree]
      exact ⟨hold,kind?_put_leaf hdir hold rfl⟩
    · cases n with
      | file old x =>
        have hold : fs.kind? (r.2.reverse ++ [name]) ≠ some .dir := by
          simp [kind?_of_find? hn, Node.kind]
        cases h
        rw [executableAt_of_file (kind?_of_find? hn)]
        exact ⟨hold,kind?_put_leaf hdir hold rfl⟩
      | link target => exact (hlink r target hr (kind?_of_find? hn)).elim
      | dir es => cases h

theorem mayReplace_file {n m : Node} {bytes : List UInt8} {x : Bool} (h : n.kind = .file bytes x) :
    mayReplace n m = if m.kind = .dir then .error .isDirectory else .ok () := by
  cases n with
  | file b x => cases m <;> rfl
  | _ => simp [Node.kind] at h

/-- Renaming a file to another name in its directory moves it and changes nothing else. -/
theorem rename_effect {source target old new : String} {dirs : List String} {bytes : List UInt8}
    {x : Bool} (hroot : fs.kind? [] = some .dir) (hsource : Leads source dirs old)
    (htarget : Leads target dirs new) (hold : isName old = true) (hnew : isName new = true)
    (hne : old ≠ new)
    (hfile : ∀ r, fs.trace false maxLinks [] dirs = some r →
      fs.kind? (r.2.reverse ++ [old]) = some (.file bytes x))
    (h : fs.rename source target = .ok gs) :
    ∃ r, fs.trace false maxLinks [] dirs = some r ∧
      fs.kind? (r.2.reverse ++ [new]) ≠ some .dir ∧
      ∀ p, gs.kind? p = if p = r.2.reverse ++ [new] then some (.file bytes x)
        else if p = r.2.reverse ++ [old] then none else fs.kind? p := by
  rw [rename] at h
  cases hs : fs.resolve source false with
  | error e => rw [hs] at h; cases h
  | ok found =>
    rw [hs] at h
    obtain ⟨r,hr,hcases⟩ := resolve_leads hsource hold (by simp) hs
    have hdir := kind?_of_trace hroot hr hroot
    have hfile := hfile r hr
    rcases hcases with ⟨hnone,rfl⟩ | ⟨n,hn,rfl⟩
    · simp [kind?_eq, hnone] at hfile
    · have hkind : n.kind = .file bytes x := by
        rw [kind?_of_find? hn] at hfile
        exact Option.some.inj hfile
      refine ⟨r,hr,?_⟩
      cases ht : fs.resolve target false with
      | error e => simp only [ht] at h; cases h
      | ok found =>
        simp only [ht] at h
        obtain ⟨r',hr',hcases⟩ := resolve_leads htarget hnew (by simp) ht
        cases hr.symm.trans hr'
        rcases hcases with ⟨hnone,rfl⟩ | ⟨m,hm,rfl⟩
        · have hfree : fs.kind? (r.2.reverse ++ [new]) ≠ some .dir := by simp [kind?_eq, hnone]
          cases h
          exact ⟨hfree,kind?_move hdir hkind hfile hfree⟩
        · have hpq : r.2.reverse ++ [old] ≠ r.2.reverse ++ [new] := by simpa using hne
          have h : (if r.2.reverse ++ [old] = r.2.reverse ++ [new] then Except.ok fs else
              (mayReplace n m).bind fun _ =>
                .ok ((fs.remove (r.2.reverse ++ [old])).put (r.2.reverse ++ [new]) n)) =
              .ok gs := h
          rw [if_neg hpq] at h
          rw [mayReplace_file hkind] at h
          have hplain : m.kind ≠ .dir := by
            intro hm
            rw [if_pos hm] at h
            cases h
          have hfree : fs.kind? (r.2.reverse ++ [new]) ≠ some .dir := by
            simpa [kind?_of_find? hm] using hplain
          rw [if_neg hplain] at h
          cases h
          exact ⟨hfree,kind?_move hdir hkind hfile hfree⟩

/-- A free name is one in a directory. -/
theorem walkParts_absent {parts dir : List String} {name : String} {trailing : Bool}
    (hroot : fs.kind? [] = some .dir)
    (h : fs.walkParts follow links here parts = .ok (.absent dir name trailing))
    (hhere : fs.kind? here.reverse = some .dir) :
    fs.kind? dir = some .dir ∧ fs.kind? (dir ++ [name]) = none := by
  fun_induction walkParts fs follow links here parts with
  | case2 links here p rest hidle ih => exact ih h hhere
  | case3 links here rest hidle ih => exact ih h (kind?_tail hhere)
  | case5 links here p rest hidle hp hlong hfind hrest =>
    cases h
    rw [List.reverse_cons] at hfind
    exact ⟨hhere,by simp [kind?_eq, hfind]⟩
  | case9 links here p rest hidle hp hlong es hfind ih => exact ih h (kind?_of_find? hfind)
  | case12 here p rest hidle hp hlong target hfind hrest n ih =>
    refine ih h ?_
    split
    · exact hroot
    · exact hhere
  | _ => cases h

private theorem walkParts_present {parts path : List String} {n : Node}
    (hroot : fs.kind? [] = some .dir)
    (h : fs.walkParts follow links here parts = .ok (.present path n))
    (hhere : fs.kind? here.reverse = some .dir) : fs.find? path = some n := by
  fun_induction walkParts fs follow links here parts with
  | case1 links here =>
    cases h
    obtain ⟨es,hfind⟩ := find?_of_kind?_dir hhere
    rw [hfind, Option.getD_some]
  | case2 links here p rest hidle ih => exact ih h hhere
  | case3 links here rest hidle ih => exact ih h (kind?_tail hhere)
  | case7 links here p rest hidle hp hlong bytes x hfind hrest =>
    cases h
    exact hfind
  | case9 links here p rest hidle hp hlong es hfind ih => exact ih h (kind?_of_find? hfind)
  | case10 links here p rest hidle hp hlong target hfind hrest =>
    cases h
    exact hfind
  | case12 here p rest hidle hp hlong target hfind hrest n ih =>
    refine ih h ?_
    split
    · exact hroot
    · exact hhere
  | _ => cases h

theorem find?_of_resolve {path : String} {p : List String} {n : Node}
    (hroot : fs.kind? [] = some .dir) (h : fs.resolve path follow = .ok (.present p n)) :
    fs.find? p = some n :=
  walkParts_present hroot (walkParts_of_resolve h) hroot

theorem resolve_of_stat {path : String} {p : List String} {n : Node}
    (h : fs.stat path = .ok (p, n)) : fs.resolve path true = .ok (.present p n) := by
  rw [stat] at h
  cases hfound : fs.resolve path true with
  | error e => rw [hfound] at h; cases h
  | ok found =>
    rw [hfound] at h
    cases found with
    | absent dir name trailing => cases h
    | present q m =>
      cases h
      rfl

theorem find?_of_stat {path : String} {p : List String} {n : Node}
    (hroot : fs.kind? [] = some .dir) (h : fs.stat path = .ok (p, n)) : fs.find? p = some n :=
  find?_of_resolve hroot (resolve_of_stat h)

/-- A free name is where its path leads once all is made. -/
theorem trace_of_absent {parts dir : List String} {name : String} {trailing : Bool}
    (h : fs.walkParts follow links here parts = .ok (.absent dir name trailing)) :
    ∃ n, fs.trace true links here parts = some (n, name :: dir.reverse) := by
  fun_induction walkParts fs follow links here parts with
  | case2 links here p rest hidle ih =>
    rw [trace, if_pos hidle]
    exact ih h
  | case3 links here rest hidle ih =>
    rw [trace, if_neg hidle, if_pos rfl]
    exact ih h
  | case5 links here p rest hidle hp hlong hfind hrest =>
    have hkind : fs.kind? (p :: here).reverse = none := by rw [kind?_eq, hfind]; rfl
    cases h
    have hreal : real rest = [] := by
      refine List.filter_eq_nil_iff.mpr fun part hpart => ?_
      have hempty : part = "" := by simpa using List.all_eq_true.mp hrest part hpart
      simp [hempty, isReal]
    rw [trace, if_neg hidle, if_neg hp, hkind]
    refine ⟨links,?_⟩
    rw [if_pos rfl, ← trace_real, hreal, trace, List.reverse_reverse]
  | case9 links here p rest hidle hp hlong es hfind ih =>
    rw [trace, if_neg hidle, if_neg hp, kind?_of_find? hfind]
    exact ih h
  | case12 here p rest hidle hp hlong target hfind hrest n ih =>
    rw [trace, if_neg hidle, if_neg hp, kind?_of_find? hfind]
    exact ih h
  | _ => cases h

def GrownAlong (fs gs : FileSystem) (way : List String) : Prop :=
  ∀ path, gs.kind? path = fs.kind? path ∨
    fs.kind? path = none ∧ gs.kind? path = some .dir ∧
      ∃ parts r, parts <+: way ∧ fs.trace true maxLinks [] parts = some r ∧ path = r.2.reverse

theorem GrownAlong.grown {way : List String} (h : GrownAlong fs gs way) : Grown fs gs :=
  fun path => (h path).imp_right fun ⟨hnone,hdir,_⟩ => ⟨hnone,hdir⟩

private theorem grownAlong_refl (fs : FileSystem) (way : List String) : GrownAlong fs fs way :=
  fun _ => .inl rfl

private theorem GrownAlong.trans {hs : FileSystem} {way further : List String}
    (h : GrownAlong fs gs way) (h' : GrownAlong gs hs further) (hway : way <+: further) :
    GrownAlong fs hs further := by
  intro path
  rcases h' path with he | ⟨hnone,hdir,parts,r,hparts,htrace,hpath⟩
  · rw [he]
    refine (h path).imp_right fun ⟨hnone,hdir,parts,r,hparts,hrest⟩ => ?_
    exact ⟨hnone,hdir,parts,r,hparts.trans hway,hrest⟩
  · rcases h path with he | ⟨-,hdir',-⟩
    · exact .inr ⟨he ▸ hnone,hdir,parts,r,hparts,h.grown.trace parts ▸ htrace,hpath⟩
    · rw [hnone] at hdir'
      cases hdir'

theorem makeDir_along {path : String} (hroot : fs.kind? [] = some .dir)
    (h : fs.makeDir path = .ok gs) : GrownAlong fs gs (names path) := by
  rw [makeDir] at h
  cases hfound : fs.resolve path false with
  | error e => rw [hfound] at h; cases h
  | ok found =>
    rw [hfound] at h
    cases found with
    | present p n => cases h
    | absent dir name trailing =>
      cases h
      have hwalk := walkParts_of_resolve hfound
      obtain ⟨hdir,hfree⟩ := walkParts_absent hroot hwalk hroot
      obtain ⟨n,htrace⟩ := trace_of_absent hwalk
      intro p
      rw [kind?_put_leaf hdir (by simp [hfree]) rfl]
      split
      · next hp =>
        refine .inr ⟨hp ▸ hfree,rfl,names path,_,List.prefix_refl _,(trace_real _).trans htrace,?_⟩
        rw [hp, List.reverse_cons, List.reverse_reverse]
      · exact .inl rfl

theorem ensureDir_along {path : String} (hroot : fs.kind? [] = some .dir)
    (h : fs.ensureDir path = .ok gs) : GrownAlong fs gs (names path) := by
  rw [ensureDir] at h
  split at h
  · next made hmade =>
    cases h
    exact makeDir_along hroot hmade
  · split at h
    · cases h
      exact grownAlong_refl fs _
    · cases h

theorem makeDirsWithin_along (hroot : fs.kind? [] = some .dir) (path : String) (n : Nat) :
    GrownAlong fs (fs.makeDirsWithin path n).1 (names path) := by
  induction n generalizing path with
  | zero => exact grownAlong_refl fs _
  | succ n ih =>
    rw [makeDirsWithin]
    split
    · exact grownAlong_refl fs _
    · split
      · next made hmade => exact makeDir_along hroot hmade
      · split
        · exact grownAlong_refl fs _
        · next parent hparent =>
          have hmade := ih parent
          have hway : names parent <+: names path := by
            rw [Path.names_parent? hparent]
            exact List.dropLast_prefix _
          split
          · next made e he =>
            rw [he] at hmade
            exact hmade.trans (grownAlong_refl made _) hway
          · next made he =>
            rw [he] at hmade
            split
            · next gs hgs =>
              exact hmade.trans (ensureDir_along (hmade.grown.kind? hroot) hgs) hway
            · exact hmade.trans (grownAlong_refl made _) hway
      · exact grownAlong_refl fs _

/-- Making directories adds directories where nothing was, on the way to the last of them. -/
theorem makeDirs_along (hroot : fs.kind? [] = some .dir) (path : String) :
    GrownAlong fs (fs.makeDirs path).1 (names path) :=
  makeDirsWithin_along hroot path _

/-- Making directories adds directories where nothing was. -/
theorem makeDirs_grown (hroot : fs.kind? [] = some .dir) (path : String) :
    Grown fs (fs.makeDirs path).1 :=
  (makeDirs_along hroot path).grown

end DocSnapshot.FileSystem
