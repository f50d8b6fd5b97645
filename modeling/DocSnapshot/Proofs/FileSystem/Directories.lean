import DocSnapshot.Proofs.FileSystem.Single

/-! Making directories keeps all files. Once they are made, making them again changes nothing. -/
namespace DocSnapshot.FileSystem
open DocSnapshot.Path (names real)

variable {fs gs : FileSystem} {follow : Bool} {links : Nat} {here : List String} {path : String}

private theorem makeDir_eq (hroot : fs.kind? [] = some .dir) (h : fs.makeDir path = .ok gs) :
    ∃ dir name trailing, fs.resolve path false = .ok (.absent dir name trailing) ∧
      fs.kind? dir = some .dir ∧ fs.kind? (dir ++ [name]) = none ∧
      gs = fs.put (dir ++ [name]) (.dir []) := by
  rw [makeDir] at h
  cases hfound : fs.resolve path false with
  | error e =>
    rw [hfound] at h
    cases h
  | ok found =>
    rw [hfound] at h
    cases found with
    | present p n => cases h
    | absent dir name trailing =>
      cases h
      obtain ⟨hdir,hfree⟩ := walkParts_absent hroot (walkParts_of_resolve hfound) hroot
      exact ⟨dir,name,trailing,rfl,hdir,hfree,rfl⟩

private theorem makeDir_file (hroot : fs.kind? [] = some .dir) {p : List String}
    {bytes : List UInt8} {x : Bool} (hfile : fs.find? p = some (.file bytes x))
    (h : fs.makeDir path = .ok gs) : gs.find? p = some (.file bytes x) := by
  obtain ⟨dir,name,-,-,-,hfree,rfl⟩ := makeDir_eq hroot h
  refine Node.find?_put_of_file _ hfile ?_
  rintro ⟨rest,rfl⟩
  have hk := kind?_of_find? hfile
  by_cases hrest : rest = []
  · rw [hrest, List.append_nil, hfree] at hk
    cases hk
  · rw [kind?_below (by simp [hfree]) hrest] at hk
    cases hk

private theorem makeDirsWithin_file (hroot : fs.kind? [] = some .dir) {p : List String}
    {bytes : List UInt8} {x : Bool} (hfile : fs.find? p = some (.file bytes x)) (path : String)
    (n : Nat) : (fs.makeDirsWithin path n).1.find? p = some (.file bytes x) := by
  induction n generalizing path with
  | zero => exact hfile
  | succ n ih =>
    rw [makeDirsWithin]
    split
    · exact hfile
    · split
      · next made hmade => exact makeDir_file hroot hfile hmade
      · split
        · exact hfile
        · next parent hparent =>
          have hgrown := (makeDirsWithin_along hroot parent n).grown
          have hmade := ih parent
          split
          · next made e he => rwa [he] at hmade
          · next made he =>
            rw [he] at hmade hgrown
            split
            · next gs hgs =>
              rw [ensureDir] at hgs
              split at hgs
              · next again hagain =>
                cases hgs
                exact makeDir_file (hgrown.kind? hroot) hmade hagain
              · split at hgs <;> cases hgs
                exact hmade
            · exact hmade
      · exact hfile

/-- Making directories keeps all that is there. -/
theorem makeDirs_kept (hroot : fs.kind? [] = some .dir) (path : String)
    (extended : List String → Prop) : Kept fs (fs.makeDirs path).1 extended := by
  refine ⟨fun p => (makeDirs_grown hroot path).kind?,fun p bytes x hfile => ?_⟩
  refine ⟨[],x,?_,.inl ⟨rfl,rfl⟩⟩
  rw [List.append_nil]
  exact makeDirsWithin_file hroot hfile path _

private theorem trace_made (hfs : fs.Linkless) {parts dir : List String} {name : String}
    {trailing : Bool} (h : fs.walkParts follow links here parts = .ok (.absent dir name trailing))
    (hdir : ∀ p, fs.kind? p = some .dir → gs.kind? p = some .dir)
    (hmade : gs.kind? (dir ++ [name]) = some .dir) :
    gs.trace false links here parts = some (links, name :: dir.reverse) := by
  fun_induction walkParts fs follow links here parts with
  | case2 links here p rest hidle ih =>
    rw [trace, if_pos hidle]
    exact ih h
  | case3 links here rest hidle ih =>
    rw [trace, if_neg hidle, if_pos rfl]
    exact ih h
  | case5 links here p rest hidle hup hlong hfind hrest =>
    cases h
    have hreal : real rest = [] := by
      refine List.filter_eq_nil_iff.mpr fun part hpart => ?_
      have hempty : part = "" := by simpa using List.all_eq_true.mp hrest part hpart
      simp [hempty, Path.isReal]
    rw [trace, if_neg hidle, if_neg hup, List.reverse_cons, hmade]
    simp only
    rw [← trace_real, hreal, trace, List.reverse_reverse]
  | case9 links here p rest hidle hup hlong es hfind ih =>
    rw [trace, if_neg hidle, if_neg hup, hdir _ (kind?_of_find? hfind)]
    exact ih h
  | case12 here p rest hidle hup hlong target hfind =>
    exact (hfs _ target (kind?_of_find? hfind)).elim
  | _ => cases h

private theorem isDir_of_makeDir (hfs : fs.Linkless) (hroot : fs.kind? [] = some .dir)
    (h : fs.makeDir path = .ok gs) : gs.isDir path = true := by
  have hgrown := (makeDir_along hroot h).grown
  obtain ⟨dir,name,trailing,hresolve,hdir,hfree,rfl⟩ := makeDir_eq hroot h
  have hne : path ≠ "" := by
    rintro rfl
    cases hresolve
  have htrace := trace_made hfs (walkParts_of_resolve hresolve) (fun p => hgrown.kind?)
    (by rw [kind?_put_leaf hdir (by simp [hfree]) rfl, if_pos rfl]; rfl)
  obtain ⟨es,hes⟩ := resolve_dir (hgrown.linkless hfs) (hgrown.kind? hroot) hne
    (refusal?_of_resolve hresolve) (by rwa [names, trace_real])
  rw [isDir, stat, hes true]
  rfl

private theorem isDir_of_ensureDir (hfs : fs.Linkless) (hroot : fs.kind? [] = some .dir)
    (h : fs.ensureDir path = .ok gs) : gs.isDir path = true := by
  rw [ensureDir] at h
  split at h
  · next made hmade =>
    cases h
    exact isDir_of_makeDir hfs hroot hmade
  · split at h
    · next hthere =>
      cases h
      exact hthere
    · cases h

private theorem isDir_of_makeDirsWithin (hfs : fs.Linkless) (hroot : fs.kind? [] = some .dir)
    {n : Nat} (h : fs.makeDirsWithin path n = (gs, none)) : path = "" ∨ gs.isDir path = true := by
  cases n with
  | zero => cases h
  | succ n =>
    rw [makeDirsWithin] at h
    split at h
    · next hempty => exact .inl (String.isEmpty_iff.mp hempty)
    · split at h
      · next made hmade =>
        cases h
        exact .inr (isDir_of_makeDir hfs hroot hmade)
      · split at h
        · cases h
        · next parent hparent =>
          have hgrown := (makeDirsWithin_along hroot parent n).grown
          split at h
          · cases h
          · next made he =>
            rw [he] at hgrown
            split at h
            · next gs hgs =>
              cases h
              exact .inr (isDir_of_ensureDir (hgrown.linkless hfs) (hgrown.kind? hroot) hgs)
            · cases h
      · split at h
        · next hthere =>
          cases h
          exact .inr hthere
        · cases h

theorem isDir_iff : fs.isDir path = true ↔ ∃ p es, fs.stat path = .ok (p, .dir es) := by
  rw [isDir]
  cases fs.stat path with
  | error e => simp
  | ok r =>
    obtain ⟨p,n⟩ := r
    cases n <;> simp [Node.isDir]

private theorem makeDirs_of_isDir (hfs : fs.Linkless) (hroot : fs.kind? [] = some .dir)
    (h : fs.isDir path = true) : fs.makeDirs path = (fs, none) := by
  obtain ⟨p,es,hstat⟩ := isDir_iff.mp h
  have hresolve := resolve_of_stat hstat
  have hne : path ≠ "" := by
    rintro rfl
    cases hresolve
  obtain ⟨es',hes⟩ := resolve_dir hfs hroot hne (refusal?_of_resolve hresolve)
    (trace_of_stat hfs hstat)
  have hmake : fs.makeDir path = .error .alreadyExists := by
    rw [makeDir, hes]
    rfl
  rw [makeDirs, makeDirsWithin, if_neg (by simpa using hne), hmake]
  simp [h]

/-- Directories that have been made need not be made again. -/
theorem makeDirs_again (hfs : fs.Linkless) (hroot : fs.kind? [] = some .dir)
    (h : fs.makeDirs path = (gs, none)) {hs : FileSystem} (hhs : hs.Linkless)
    {extended : List String → Prop} (hkept : Kept gs hs extended) :
    hs.makeDirs path = (hs, none) := by
  have hgrown := makeDirs_grown hroot path
  rw [h] at hgrown
  have hroot' := hgrown.kind? hroot
  rcases isDir_of_makeDirsWithin hfs hroot h with rfl | hthere
  · rfl
  · obtain ⟨p,es,hstat⟩ := isDir_iff.mp hthere
    obtain ⟨es',hstat'⟩ := stat_of_kept (hgrown.linkless hfs) hhs hroot' hkept.dir hstat
    exact makeDirs_of_isDir hhs (hkept.dir _ hroot') (isDir_iff.mpr ⟨p,es',hstat'⟩)

end DocSnapshot.FileSystem
