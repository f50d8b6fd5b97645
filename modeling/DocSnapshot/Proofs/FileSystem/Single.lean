import DocSnapshot.Proofs.FileSystem.Linkless

/-! Changes to single files where there are no links, with all that a file holds. A file that is
written is found again, and so is everything that was found before. -/
namespace DocSnapshot

namespace FileSystem
open DocSnapshot.Path (isReal real names isName Leads)

variable {fs gs hs : FileSystem} {follow : Bool} {links : Nat} {here : List String} {path : String}

def destination (parts : List String) : List String := (settle [] parts).reverse

/-- What `gs` is when everything that stands in `fs` is kept, but at one place something may be
added to a file. -/
structure Kept (fs gs : FileSystem) (extended : List String → Prop) : Prop where
  dir : ∀ p, fs.kind? p = some .dir → gs.kind? p = some .dir
  file : ∀ p bytes x, fs.find? p = some (.file bytes x) →
    ∃ more y, gs.find? p = some (.file (bytes ++ more) y) ∧ (more = [] ∧ y = x ∨ extended p)

theorem kept_refl (fs : FileSystem) (extended : List String → Prop) : Kept fs fs extended :=
  ⟨fun _ hk => hk,fun _ _ x hfile => ⟨[],x,by rw [List.append_nil, hfile],.inl ⟨rfl,rfl⟩⟩⟩

theorem Kept.trans {extended : List String → Prop} (h : Kept fs gs extended)
    (h' : Kept gs hs extended) : Kept fs hs extended := by
  refine ⟨fun p hk => h'.dir p (h.dir p hk),fun p bytes x hfile => ?_⟩
  obtain ⟨more,y,hmid,hmore⟩ := h.file p bytes x hfile
  obtain ⟨more',z,hend,hmore'⟩ := h'.file p _ y hmid
  refine ⟨more ++ more',z,by rw [hend, List.append_assoc],?_⟩
  rcases hmore with ⟨rfl,rfl⟩ | hp
  · exact hmore'
  · exact .inr hp

theorem Kept.mono {extended wider : List String → Prop} (h : Kept fs gs extended)
    (hp : ∀ p, extended p → wider p) : Kept fs gs wider := by
  refine ⟨h.dir,fun p bytes x hfile => ?_⟩
  obtain ⟨more,y,hfind,hmore⟩ := h.file p bytes x hfile
  exact ⟨more,y,hfind,hmore.imp_right (hp p)⟩

/-- What `gs` is when a file is put at a place of `fs`. -/
structure Filled (fs gs : FileSystem) (place : List String) (bytes : List UInt8) (x : Bool) :
    Prop where
  file : gs.find? place = some (.file bytes x)
  kind : ∀ p, p ≠ place → gs.kind? p = fs.kind? p
  other : ∀ p old y, p ≠ place → fs.find? p = some (.file old y) → gs.find? p = some (.file old y)
  notDir : fs.kind? place ≠ some .dir

section Filled
variable {place : List String} {bytes : List UInt8} {x : Bool}

theorem Filled.linkless (h : Filled fs gs place bytes x) (hfs : fs.Linkless) : gs.Linkless := by
  intro p target
  by_cases hp : p = place
  · rw [hp, kind?_of_find? h.file]
    simp [Node.kind]
  · rw [h.kind p hp]
    exact hfs p target

theorem Filled.dir (h : Filled fs gs place bytes x) {p : List String}
    (hk : fs.kind? p = some .dir) : gs.kind? p = some .dir := by
  rw [h.kind p, hk]
  rintro rfl
  exact h.notDir hk

/-- A file is filled by putting it where no directory stands. -/
theorem filled_put {dir : List String} {name : String} (hdir : fs.kind? dir = some .dir)
    (hold : fs.kind? (dir ++ [name]) ≠ some .dir) (bytes : List UInt8) (x : Bool) :
    Filled fs (fs.put (dir ++ [name]) (.file bytes x)) (dir ++ [name]) bytes x := by
  refine ⟨Node.find?_put_self _ hdir,fun p hp => ?_,fun p old y hp hfile => ?_,hold⟩
  · rw [kind?_put_leaf hdir hold rfl, if_neg hp]
  · refine Node.find?_put_of_file _ hfile fun hbelow => ?_
    obtain ⟨rest,rfl⟩ := hbelow
    have hrest : rest ≠ [] := by
      rintro rfl
      exact hp (List.append_nil _)
    have hnone := kind?_below hold hrest
    rw [kind?_of_find? hfile] at hnone
    cases hnone

/-- A file that is there is filled anew. -/
theorem filled_put_of_file {p : List String} {old : List UInt8} {y : Bool}
    (hroot : fs.kind? [] = some .dir) (hfile : fs.find? p = some (.file old y)) (bytes : List UInt8)
    (x : Bool) : Filled fs (fs.put p (.file bytes x)) p bytes x := by
  have hk := kind?_of_find? hfile
  rcases List.eq_nil_or_concat p with rfl | ⟨dir,name,rfl⟩
  · rw [hroot] at hk
    cases hk
  · rw [List.concat_eq_append] at *
    exact filled_put (kind?_above (List.cons_ne_nil name []) (by simp [hk]))
      (by simp [hk, Node.kind])
      bytes x

theorem Filled.trans {more : List UInt8} {y : Bool} (h : Filled fs gs place bytes x)
    (h' : Filled gs hs place more y) : Filled fs hs place more y := by
  refine ⟨h'.file,fun p hp => (h'.kind p hp).trans (h.kind p hp),fun p old z hp hfile => ?_,
    h.notDir⟩
  exact h'.other p old z hp (h.other p old z hp hfile)

/-- Everything else is kept where a file is filled, and the file itself as far as it goes on. -/
theorem Filled.kept (h : Filled fs gs place bytes x) {extended : List String → Prop}
    (hplace : ∀ old y, fs.find? place = some (.file old y) → old <+: bytes ∧ extended place) :
    Kept fs gs extended := by
  refine ⟨fun p hk => h.dir hk,fun p old y hfile => ?_⟩
  by_cases hp : p = place
  · subst hp
    obtain ⟨⟨more,rfl⟩,hextended⟩ := hplace old y hfile
    exact ⟨more,x,h.file,.inr hextended⟩
  · exact ⟨[],y,by rw [List.append_nil, h.other p old y hp hfile],.inl ⟨rfl,rfl⟩⟩

end Filled

private theorem walkParts_filled (hfs : fs.Linkless) {parts place : List String} {found : Found}
    {bytes : List UInt8} {x : Bool} (h : fs.walkParts true links here parts = .ok found)
    (hhere : fs.kind? here.reverse = some .dir)
    (hplace : (∃ old y, found = .present place (.file old y)) ∨
      ∃ dir name, found = .absent dir name false ∧ place = dir ++ [name])
    (hdir : ∀ p, fs.kind? p = some .dir → gs.kind? p = some .dir)
    (hfile : gs.find? place = some (.file bytes x)) :
    gs.walkParts true links here parts = .ok (.present place (.file bytes x)) := by
  fun_induction walkParts fs true links here parts with
  | case1 links here =>
    obtain ⟨es,hfind⟩ := find?_of_kind?_dir hhere
    rw [hfind] at h
    cases h
    simp at hplace
  | case2 links here p rest hidle ih =>
    rw [walkParts, if_pos hidle]
    exact ih h hhere
  | case3 links here rest hidle ih =>
    rw [walkParts, if_neg hidle, if_pos rfl]
    exact ih h (kind?_tail hhere)
  | case5 links here p rest hidle hup hlong hfind hrest =>
    cases h
    simp only [reduceCtorEq, exists_false, Found.absent.injEq, false_or] at hplace
    obtain ⟨dir,name,⟨rfl,rfl,hnil⟩,rfl⟩ := hplace
    rw [walkParts, if_neg hidle, if_neg hup, if_neg hlong, List.reverse_cons, hfile]
    exact if_pos (by simpa using hnil)
  | case7 links here p rest hidle hup hlong old y hfind hrest =>
    cases h
    obtain ⟨_,_,heq⟩ | ⟨_,_,heq,-⟩ := hplace
    · cases heq
      rw [walkParts, if_neg hidle, if_neg hup, if_neg hlong, hfile]
      exact if_pos hrest
    · cases heq
  | case9 links here p rest hidle hup hlong es hfind ih =>
    obtain ⟨es',hfind'⟩ := find?_of_kind?_dir (hdir _ (kind?_of_find? hfind))
    rw [walkParts, if_neg hidle, if_neg hup, if_neg hlong, hfind']
    exact ih h (kind?_of_find? hfind)
  | case10 links here p rest hidle hup hlong target hfind =>
    exact (hfs _ target (kind?_of_find? hfind)).elim
  | case12 here p rest hidle hup hlong target hfind =>
    exact (hfs _ target (kind?_of_find? hfind)).elim
  | _ => cases h

private theorem stat_filled (hfs : fs.Linkless) (hroot : fs.kind? [] = some .dir)
    {place : List String} {found : Found} {bytes : List UInt8} {x : Bool}
    (h : fs.resolve path true = .ok found)
    (hplace : (∃ old y, found = .present place (.file old y)) ∨
      ∃ dir name, found = .absent dir name false ∧ place = dir ++ [name])
    (hdir : ∀ p, fs.kind? p = some .dir → gs.kind? p = some .dir)
    (hfile : gs.find? place = some (.file bytes x)) :
    gs.stat path = .ok (place, .file bytes x) := by
  have hne : path ≠ "" := by
    rintro rfl
    cases h
  have hwalk := walkParts_filled hfs (walkParts_of_resolve h) hroot hplace hdir hfile
  rw [stat, resolve_eq hne (refusal?_of_resolve h), hwalk]
  rfl

/-- A file is found again where it is kept, whatever it holds then. -/
theorem stat_file_of_kept (hfs : fs.Linkless) (hroot : fs.kind? [] = some .dir) {p : List String}
    {old bytes : List UInt8} {x y : Bool} (h : fs.stat path = .ok (p, .file old y))
    (hdir : ∀ p, fs.kind? p = some .dir → gs.kind? p = some .dir)
    (hfile : gs.find? p = some (.file bytes x)) : gs.stat path = .ok (p, .file bytes x) :=
  stat_filled hfs hroot (resolve_of_stat h) (.inl ⟨old,y,rfl⟩) hdir hfile

theorem exists?_iff : fs.exists? path = true ↔ ∃ r, fs.stat path = .ok r := by
  rw [exists?]
  cases fs.stat path with
  | ok r => simp
  | error e => simp

theorem isFile_iff :
    fs.isFile path = true ↔ ∃ p bytes x, fs.stat path = .ok (p, .file bytes x) := by
  rw [isFile]
  cases fs.stat path with
  | error e => simp
  | ok r =>
    obtain ⟨p,n⟩ := r
    cases n <;> simp [Node.isFile]

section Kept
variable {extended : List String → Prop}

theorem Kept.exists? (h : Kept fs gs extended) (hfs : fs.Linkless) (hgs : gs.Linkless)
    (hroot : fs.kind? [] = some .dir) (hthere : fs.exists? path = true) :
    gs.exists? path = true := by
  obtain ⟨⟨p,n⟩,hstat⟩ := exists?_iff.mp hthere
  rw [exists?_iff]
  cases n with
  | file bytes x =>
    obtain ⟨more,y,hfile,-⟩ := h.file p bytes x (find?_of_stat hroot hstat)
    exact ⟨_,stat_file_of_kept hfs hroot hstat h.dir hfile⟩
  | link target => exact (hfs _ target (kind?_of_find? (find?_of_stat hroot hstat))).elim
  | dir es =>
    obtain ⟨es',hstat'⟩ := stat_of_kept hfs hgs hroot h.dir hstat
    exact ⟨_,hstat'⟩

/-- A file to which nothing is added is found with what it held. -/
theorem Kept.stat_file (h : Kept fs gs extended) (hfs : fs.Linkless)
    (hroot : fs.kind? [] = some .dir) {p : List String} {bytes : List UInt8} {x : Bool}
    (hp : ¬extended p) (hstat : fs.stat path = .ok (p, .file bytes x)) :
    gs.stat path = .ok (p, .file bytes x) := by
  obtain ⟨more,y,hfile,⟨rfl,rfl⟩ | hextended⟩ := h.file p bytes x (find?_of_stat hroot hstat)
  · rw [List.append_nil] at hfile
    exact stat_file_of_kept hfs hroot hstat h.dir hfile
  · exact (hp hextended).elim

end Kept

private theorem settle_real (parts : List String) :
    settle here (real parts) = settle here parts := by
  induction parts generalizing here with
  | nil => rfl
  | cons p rest ih =>
    by_cases hidle : (p = "" || p = ".") = true
    · rw [settle, if_pos hidle, ← ih, real, List.filter_cons_of_neg (by simp [isReal, hidle]), real]
    · have hreal : isReal p = true := by
        rw [isReal, Bool.eq_false_iff.mpr hidle]
        rfl
      rw [real, List.filter_cons_of_pos hreal, settle, settle, if_neg hidle, if_neg hidle]
      split <;> exact ih

/-- A path that ends with a name leads to that name. -/
theorem destination_leads {name : String} {dirs : List String} (h : Leads path dirs name)
    (hname : isName name = true) : destination (partsOf path) = destination dirs ++ [name] := by
  obtain ⟨above,hparts,rfl⟩ := h
  obtain ⟨hidle,hup⟩ := Path.not_idle_of_isName hname
  rw [destination, destination, hparts, settle_append, settle, if_neg hidle, if_neg hup, settle,
    settle_real, List.reverse_cons]

/-- What is written is found at the end of its path, and was found there before or nothing was. -/
theorem write_filled (hfs : fs.Linkless) (hroot : fs.kind? [] = some .dir) {bytes : List UInt8}
    (h : fs.write path bytes = .ok gs) :
    ∃ x, Filled fs gs (destination (partsOf path)) bytes x ∧
      gs.stat path = .ok (destination (partsOf path), .file bytes x) ∧
      ((∃ old, fs.stat path = .ok (destination (partsOf path), .file old x)) ∨
        fs.kind? (destination (partsOf path)) = none) := by
  rw [write] at h
  cases hfound : fs.resolve path true with
  | error e =>
    rw [hfound] at h
    cases h
  | ok found =>
    rw [hfound] at h
    cases found with
    | present p n =>
      cases n with
      | file old x =>
        cases h
        have hstat : fs.stat path = .ok (p, .file old x) := by
          rw [stat, hfound]
          rfl
        obtain rfl : p = destination (partsOf path) := stat_settle hfs hstat
        have hfilled := filled_put_of_file hroot (find?_of_stat hroot hstat) bytes x
        exact ⟨x,hfilled,stat_file_of_kept hfs hroot hstat (fun _ => hfilled.dir) hfilled.file,
          .inl ⟨old,hstat⟩⟩
      | _ => cases h
    | absent dir name trailing =>
      cases trailing with
      | true => cases h
      | false =>
        cases h
        have hwalk := walkParts_of_resolve hfound
        obtain ⟨hdir,hfree⟩ := walkParts_absent hroot hwalk hroot
        obtain ⟨n,htrace⟩ := trace_of_absent hwalk
        have hsettle : name :: dir.reverse = settle [] (partsOf path) :=
          congrArg Prod.snd (trace_settle hfs htrace)
        have hplace : destination (partsOf path) = dir ++ [name] := by
          rw [destination, ← hsettle, List.reverse_cons, List.reverse_reverse]
        have hfilled := filled_put hdir (show fs.kind? (dir ++ [name]) ≠ _ by simp [hfree]) bytes
          false
        rw [hplace]
        exact ⟨false,hfilled,stat_filled hfs hroot hfound (.inr ⟨dir,name,rfl,rfl⟩)
          (fun _ => hfilled.dir) hfilled.file,.inr hfree⟩

/-- A copy is put where nothing was found. -/
theorem copy_filled (hfs : fs.Linkless) (hroot : fs.kind? [] = some .dir) {source : String}
    (hfree : fs.exists? path = false) (h : fs.copy source path = .ok gs) :
    ∃ bytes x, Filled fs gs (destination (partsOf path)) bytes x ∧
      gs.stat path = .ok (destination (partsOf path), .file bytes x) ∧
      fs.kind? (destination (partsOf path)) = none := by
  rw [copy] at h
  cases hsource : fs.stat source with
  | error e =>
    rw [hsource] at h
    cases h
  | ok r =>
    obtain ⟨p,n⟩ := r
    cases n with
    | file bytes x =>
      simp only [hsource, bind, Except.bind] at h
      cases hwrite : fs.write path bytes with
      | error e =>
        simp only [hwrite] at h
        cases h
      | ok mid =>
        obtain ⟨y,hfilled,hstat,⟨old,hold⟩ | hnone⟩ := write_filled hfs hroot hwrite
        · rw [exists?, hold] at hfree
          cases hfree
        · simp only [hwrite, hstat] at h
          cases h
          have hmode := filled_put_of_file (hfilled.dir hroot) hfilled.file bytes x
          exact ⟨bytes,x,hfilled.trans hmode,stat_file_of_kept (hfilled.linkless hfs)
            (hfilled.dir hroot) hstat (fun _ => hmode.dir) hmode.file,hnone⟩
    | _ =>
      rw [hsource] at h
      cases h

theorem makeExecutable_filled (hfs : fs.Linkless) (hroot : fs.kind? [] = some .dir)
    {p : List String} {bytes : List UInt8} {x : Bool} (h : fs.stat path = .ok (p, .file bytes x)) :
    ∃ gs, fs.makeExecutable path = .ok gs ∧ Filled fs gs p bytes true ∧
      gs.stat path = .ok (p, .file bytes true) := by
  have hmode := filled_put_of_file hroot (find?_of_stat hroot h) bytes true
  refine ⟨_,?_,hmode,stat_file_of_kept hfs hroot h (fun _ => hmode.dir) hmode.file⟩
  rw [makeExecutable, h]
  rfl

end FileSystem

end DocSnapshot
