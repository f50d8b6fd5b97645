import DocSnapshot.Proofs.FileSystem.Lookup

/-! File systems without links. Where a path leads there can be read off its text. -/
namespace DocSnapshot

namespace Node

mutual
def linkless : Node → Bool
  | .file _ _ => true
  | .link _ => false
  | .dir es => linklessAll es

def linklessAll : List (String × Node) → Bool
  | [] => true
  | (_, n) :: rest => n.linkless && linklessAll rest
end

private theorem linkless_of_get? {s : String} {es : List (String × Node)} {n : Node}
    (h : linklessAll es = true) (hget : OrderedMap.get? s es = some n) : n.linkless = true := by
  induction es with
  | nil => cases hget
  | cons e rest ih =>
    simp only [linklessAll, Bool.and_eq_true] at h
    rw [OrderedMap.get?] at hget
    split at hget
    · cases hget
      exact h.1
    · exact ih h.2 hget

private theorem linkless_of_find? {path : List String} {n m : Node} (h : n.linkless = true)
    (hfind : n.find? path = some m) : m.linkless = true := by
  induction path generalizing n with
  | nil =>
    cases hfind
    exact h
  | cons s rest ih =>
    rw [find?, Option.bind_eq_some_iff] at hfind
    obtain ⟨k,hk,hfind⟩ := hfind
    refine ih (linkless_of_get? ?_ hk) hfind
    cases n with
    | dir es => rwa [linkless] at h
    | _ => rfl

end Node

namespace FileSystem
open DocSnapshot.Path (isReal real names isName Leads)

/-- A file system without links. -/
def Linkless (fs : FileSystem) : Prop := ∀ path target, fs.kind? path ≠ some (.link target)

theorem linkless_of_root {fs : FileSystem} (h : fs.root.linkless = true) : fs.Linkless := by
  intro path target hk
  rw [kind?_eq, Option.map_eq_some_iff] at hk
  obtain ⟨n,hfind,hk⟩ := hk
  have hn := Node.linkless_of_find? h hfind
  cases n with
  | link t => cases hn
  | _ => cases hk

variable {fs gs : FileSystem} {made follow : Bool} {links : Nat} {here : List String}
  {path name : String} {dirs : List String}

theorem Grown.linkless (h : Grown fs gs) (hfs : fs.Linkless) : gs.Linkless := by
  intro p target
  rcases h p with hsame | ⟨-,hdir⟩
  · rw [hsame]
    exact hfs p target
  · simp [hdir]

private theorem walkParts_of_trace (hfs : fs.Linkless) {parts : List String}
    {r : Nat × List String} (hfits : ∀ part ∈ parts, part.utf8ByteSize ≤ maxName)
    (h : fs.trace false links here parts = some r) (rest : List String) :
    fs.walkParts follow links here (parts ++ rest) = fs.walkParts follow links r.2 rest := by
  fun_induction trace fs false links here parts with
  | case1 links here => cases h; rfl
  | case2 links here p parts hp ih =>
    rw [List.cons_append, walkParts, if_pos hp]
    exact ih (fun part hpart => hfits part (List.mem_cons_of_mem p hpart)) h
  | case3 links here parts hp ih =>
    rw [List.cons_append, walkParts, if_neg hp, if_pos rfl]
    exact ih (fun part hpart => hfits part (List.mem_cons_of_mem _ hpart)) h
  | case4 links here p parts hp hup hk ih =>
    obtain ⟨es,hfind⟩ := find?_of_kind?_dir hk
    rw [List.cons_append, walkParts, if_neg hp, if_neg hup,
      if_neg (Nat.not_lt.mpr (hfits p List.mem_cons_self)), hfind]
    exact ih (fun part hpart => hfits part (List.mem_cons_of_mem p hpart)) h
  | case7 here p parts hp hup target hk => exact (hfs _ target hk).elim
  | case8 links here p parts hp hup hk hmade => simp at hmade
  | _ => cases h

private theorem trace_of_walkParts (hfs : fs.Linkless) {parts p : List String}
    {es : List (String × Node)}
    (h : fs.walkParts follow links here parts = .ok (.present p (.dir es))) :
    fs.trace false links here parts = some (links, p.reverse) := by
  fun_induction walkParts fs follow links here parts with
  | case1 links here =>
    injection h with h
    injection h with h
    rw [trace, ← h, List.reverse_reverse]
  | case2 links here q rest hq ih =>
    rw [trace, if_pos hq]
    exact ih h
  | case3 links here rest hq ih =>
    rw [trace, if_neg hq, if_pos rfl]
    exact ih h
  | case9 links here q rest hq hup hlong es' hfind ih =>
    rw [trace, if_neg hq, if_neg hup, kind?_of_find? hfind]
    exact ih h
  | case12 here q rest hq hup hlong target hfind => exact (hfs _ target (kind?_of_find? hfind)).elim
  | _ => cases h

theorem trace_of_stat (hfs : fs.Linkless) {dir : List String} {es : List (String × Node)}
    (h : fs.stat path = .ok (dir, .dir es)) :
    fs.trace false maxLinks [] (names path) = some (maxLinks, dir.reverse) := by
  rw [names, trace_real]
  exact trace_of_walkParts hfs (walkParts_of_resolve (resolve_of_stat h))

private theorem walkParts_missing (hfs : fs.Linkless) {parts : List String} {r : Nat × List String}
    (hfits : ∀ part ∈ parts, part.utf8ByteSize ≤ maxName)
    (hnone : fs.trace false links here parts = none)
    (h : fs.trace true links here parts = some r) {name : String} (hname : name ≠ "") :
    fs.walkParts follow links here (parts ++ [name]) = .error .notFound := by
  fun_induction trace fs true links here parts with
  | case1 links here => simp [trace] at hnone
  | case2 links here p parts hp ih =>
    rw [trace, if_pos hp] at hnone
    rw [List.cons_append, walkParts, if_pos hp]
    exact ih (fun part hpart => hfits part (List.mem_cons_of_mem p hpart)) hnone h
  | case3 links here parts hp ih =>
    rw [trace, if_neg hp, if_pos rfl] at hnone
    rw [List.cons_append, walkParts, if_neg hp, if_pos rfl]
    exact ih (fun part hpart => hfits part (List.mem_cons_of_mem _ hpart)) hnone h
  | case4 links here p parts hp hup hk ih =>
    obtain ⟨es,hfind⟩ := find?_of_kind?_dir hk
    rw [trace, if_neg hp, if_neg hup, hk] at hnone
    rw [List.cons_append, walkParts, if_neg hp, if_neg hup,
      if_neg (Nat.not_lt.mpr (hfits p List.mem_cons_self)), hfind]
    exact ih (fun part hpart => hfits part (List.mem_cons_of_mem p hpart)) hnone h
  | case7 here p parts hp hup target hk => exact (hfs _ target hk).elim
  | case8 links here p parts hp hup hk hmade ih =>
    rw [List.cons_append, walkParts, if_neg hp, if_neg hup,
      if_neg (Nat.not_lt.mpr (hfits p List.mem_cons_self)), find?_of_kind?_none hk]
    exact if_neg (by simp [hname])
  | _ => cases h

theorem resolve_eq (hne : path ≠ "") (h : refusal? path = none) :
    fs.resolve path follow = fs.walkParts follow maxLinks [] (partsOf path) := by
  obtain ⟨hnul,hlong,-⟩ := refusal?_eq_none.mp h
  rw [resolve, hnul, if_neg Bool.false_ne_true, if_neg (by simpa using hne),
    if_neg (Nat.not_lt.mpr hlong)]

/-- A path to a directory that is there finds it. -/
theorem resolve_dir (hfs : fs.Linkless) (hroot : fs.kind? [] = some .dir) (hne : path ≠ "")
    (h : refusal? path = none) {r : Nat × List String}
    (hr : fs.trace false maxLinks [] (names path) = some r) :
    ∃ es, ∀ follow, fs.resolve path follow = .ok (.present r.2.reverse (.dir es)) := by
  rw [names, trace_real] at hr
  obtain ⟨es,hfind⟩ := find?_of_kind?_dir (kind?_of_trace hroot hr hroot)
  refine ⟨es,fun follow => ?_⟩
  have hwalk := @walkParts_of_trace fs follow maxLinks [] hfs _ _ (refusal?_eq_none.mp h).2.2 hr []
  rw [List.append_nil] at hwalk
  rw [resolve_eq hne h, hwalk, walkParts, hfind]
  rfl

/-- A directory that is kept is found by the same paths. -/
theorem stat_of_kept (hfs : fs.Linkless) (hgs : gs.Linkless) (hroot : fs.kind? [] = some .dir)
    (hkept : ∀ p, fs.kind? p = some .dir → gs.kind? p = some .dir) {dir : List String}
    {es : List (String × Node)} (h : fs.stat path = .ok (dir, .dir es)) :
    ∃ es', gs.stat path = .ok (dir, .dir es') := by
  have hresolve := resolve_of_stat h
  have hne : path ≠ "" := by
    rintro rfl
    cases hresolve
  have htrace := @trace_of_kept fs gs false maxLinks [] _ _ hkept
    (fun p target hk => (hfs p target hk).elim) (trace_of_stat hfs h)
  obtain ⟨es',hdir⟩ := resolve_dir hgs (hkept _ hroot) hne (refusal?_of_resolve hresolve) htrace
  refine ⟨es',?_⟩
  rw [stat, hdir true, List.reverse_reverse]
  rfl

theorem ne_empty_of_leads (hpath : Leads path dirs name) (hname : isName name = true) :
    path ≠ "" := by
  rintro rfl
  have hnames := Path.names_leads hpath hname
  simp [names, partsOf, real, isReal] at hnames

/-- A path to a name in a directory that is there finds what has that name. -/
theorem resolve_name (hfs : fs.Linkless) (h : refusal? path = none) (hpath : Leads path dirs name)
    (hname : isName name = true) {r : Nat × List String}
    (hr : fs.trace false maxLinks [] dirs = some r) :
    fs.resolve path follow = .ok (match fs.find? (r.2.reverse ++ [name]) with
      | none => .absent r.2.reverse name false
      | some n => .present (r.2.reverse ++ [name]) n) := by
  have hfits := (refusal?_eq_none.mp h).2.2
  have hne := ne_empty_of_leads hpath hname
  obtain ⟨above,hparts,rfl⟩ := hpath
  obtain ⟨hidle,hup⟩ := Path.not_idle_of_isName hname
  rw [trace_real] at hr
  rw [hparts] at hfits
  rw [resolve_eq hne h, hparts,
    walkParts_of_trace hfs (fun part hpart => hfits part (List.mem_append_left _ hpart)) hr,
    walkParts, if_neg hidle, if_neg hup, if_neg (Nat.not_lt.mpr (hfits name (by simp))),
    List.reverse_cons]
  cases hfind : fs.find? (r.2.reverse ++ [name]) with
  | none => rfl
  | some n =>
    cases n with
    | file bytes x => rfl
    | link target => exact (hfs _ target (kind?_of_find? hfind)).elim
    | dir es =>
      simp only [walkParts, List.reverse_cons, hfind]
      rfl

theorem resolve_missing (hfs : fs.Linkless) (h : refusal? path = none)
    (hpath : Leads path dirs name) (hname : isName name = true) {r : Nat × List String}
    (hnone : fs.trace false maxLinks [] dirs = none)
    (hr : fs.trace true maxLinks [] dirs = some r) :
    fs.resolve path follow = .error .notFound := by
  have hfits := (refusal?_eq_none.mp h).2.2
  have hne := ne_empty_of_leads hpath hname
  obtain ⟨above,hparts,rfl⟩ := hpath
  rw [trace_real] at hnone hr
  rw [hparts] at hfits
  have hempty : name ≠ "" := by
    rintro rfl
    simp [isName, isReal] at hname
  rw [resolve_eq hne h, hparts]
  exact walkParts_missing hfs (fun part hpart => hfits part (List.mem_append_left _ hpart)) hnone hr
    hempty

/-- Where parts lead from the directory `here`, its names given last first, if none is a link. -/
def settle (here : List String) : List String → List String
  | [] => here
  | p :: rest =>
    if p = "" || p = "." then settle here rest
    else if p = ".." then settle here.tail rest
    else settle (p :: here) rest

theorem settle_append (xs ys : List String) :
    settle here (xs ++ ys) = settle (settle here xs) ys := by
  induction xs generalizing here with
  | nil => rfl
  | cons p rest ih =>
    simp only [List.cons_append, settle]
    split
    · exact ih
    · split <;> exact ih

/-- Without two periods parts lead down. -/
theorem settle_down {parts : List String} (h : ".." ∉ parts) :
    settle here parts = (real parts).reverse ++ here := by
  induction parts generalizing here with
  | nil => rfl
  | cons p rest ih =>
    rw [List.mem_cons, not_or] at h
    rw [settle]
    split
    · next hidle =>
      rw [ih h.2, real, real, List.filter_cons_of_neg (by simp [isReal, hidle])]
    · next hidle =>
      rw [Bool.not_eq_true] at hidle
      rw [if_neg (Ne.symm h.1), ih h.2, real, real,
        List.filter_cons_of_pos (by simp [isReal, hidle])]
      simp

theorem trace_settle (hfs : fs.Linkless) {parts : List String} {r : Nat × List String}
    (h : fs.trace made links here parts = some r) : r = (links, settle here parts) := by
  fun_induction trace fs made links here parts with
  | case1 links here => cases h; rfl
  | case2 links here p rest hidle ih => rw [settle, if_pos hidle, ih h]
  | case3 links here rest hidle ih => rw [settle, if_neg hidle, if_pos rfl, ih h]
  | case4 links here p rest hidle hup hk ih => rw [settle, if_neg hidle, if_neg hup, ih h]
  | case7 here p rest hidle hup target hk => exact (hfs _ target hk).elim
  | case8 links here p rest hidle hup hk hmade ih => rw [settle, if_neg hidle, if_neg hup, ih h]
  | _ => cases h

theorem walkParts_settle (hfs : fs.Linkless) {parts p : List String} {n : Node}
    (h : fs.walkParts follow links here parts = .ok (.present p n)) :
    p = (settle here parts).reverse := by
  fun_induction walkParts fs follow links here parts with
  | case1 links here =>
    injection h with h
    injection h with h
    rw [← h]
    rfl
  | case2 links here q rest hq ih => rw [settle, if_pos hq, ih h]
  | case3 links here rest hq ih => rw [settle, if_neg hq, if_pos rfl, ih h]
  | case7 links here q rest hq hup hlong bytes x hfind hrest =>
    cases h
    rw [settle, if_neg hq, if_neg hup, List.isEmpty_iff.mp hrest]
    rfl
  | case9 links here q rest hq hup hlong es hfind ih => rw [settle, if_neg hq, if_neg hup, ih h]
  | case10 links here q rest hq hup hlong target hfind =>
    exact (hfs _ target (kind?_of_find? hfind)).elim
  | case12 here q rest hq hup hlong target hfind => exact (hfs _ target (kind?_of_find? hfind)).elim
  | _ => cases h

/-- Where a path leads can be read off its text. -/
theorem stat_settle (hfs : fs.Linkless) {p : List String} {n : Node}
    (h : fs.stat path = .ok (p, n)) : p = (settle [] (partsOf path)).reverse :=
  walkParts_settle hfs (walkParts_of_resolve (resolve_of_stat h))

private theorem walkParts_transfer (hfs : fs.Linkless) {parts p : List String} {bytes : List UInt8}
    {x y : Bool} (h : fs.walkParts true links here parts = .ok (.present p (.file bytes x)))
    (hhere : fs.kind? here.reverse = some .dir)
    (hfile : gs.kind? p = some (.file bytes y))
    (hdirs : ∀ xs ys r, parts = xs ++ ys → fs.trace false links here xs = some r →
      gs.kind? r.2.reverse = some .dir) :
    gs.walkParts true links here parts = .ok (.present p (.file bytes y)) := by
  -- Every directory on the way is found again, so the walk takes the same turns.
  fun_induction walkParts fs true links here parts with
  | case1 links here =>
    obtain ⟨es,hfind⟩ := find?_of_kind?_dir hhere
    simp [hfind] at h
  | case2 links here q rest hq ih =>
    rw [walkParts, if_pos hq]
    refine ih h hhere fun xs ys r hxs hr => hdirs (q :: xs) ys r (by rw [hxs]; rfl) ?_
    rwa [trace, if_pos hq]
  | case3 links here rest hq ih =>
    rw [walkParts, if_neg hq, if_pos rfl]
    refine ih h (kind?_tail hhere) fun xs ys r hxs hr => hdirs (_ :: xs) ys r (by rw [hxs]; rfl) ?_
    rwa [trace, if_neg hq, if_pos rfl]
  | case7 links here q rest hq hup hlong old z hfind hrest =>
    cases h
    rw [walkParts, if_neg hq, if_neg hup, if_neg hlong, find?_of_kind?_file hfile]
    exact if_pos hrest
  | case9 links here q rest hq hup hlong es hfind ih =>
    have hk := kind?_of_find? hfind
    have hstep : ∀ xs, fs.trace false links here (q :: xs) =
        fs.trace false links (q :: here) xs := by
      intro xs
      rw [trace, if_neg hq, if_neg hup, hk]
      rfl
    have hdir := hdirs [q] rest (links, q :: here) rfl (by rw [hstep, trace])
    obtain ⟨es',hfind'⟩ := find?_of_kind?_dir hdir
    rw [walkParts, if_neg hq, if_neg hup, if_neg hlong, hfind']
    refine ih h hk fun xs ys r hxs hr => hdirs (q :: xs) ys r (by rw [hxs]; rfl) ?_
    rw [hstep, hr]
  | case12 here q rest hq hup hlong target hfind => exact (hfs _ target (kind?_of_find? hfind)).elim
  | _ => cases h

theorem read_eq_ok_iff {bytes : List UInt8} :
    fs.read path = .ok bytes ↔ ∃ p x, fs.resolve path true = .ok (.present p (.file bytes x)) := by
  rw [read, stat]
  constructor
  · intro h
    cases hfound : fs.resolve path true with
    | error e => rw [hfound] at h; cases h
    | ok found =>
      rw [hfound] at h
      cases found with
      | absent dir name trailing => cases h
      | present p n =>
        cases n with
        | file content x =>
          cases h
          exact ⟨p,x,rfl⟩
        | _ => cases h
  · rintro ⟨p,x,hresolve⟩
    rw [hresolve]
    rfl

private theorem read_transfer (hfs : fs.Linkless) (hroot : fs.kind? [] = some .dir)
    {p : List String} {bytes : List UInt8} {x y : Bool}
    (h : fs.resolve path true = .ok (.present p (.file bytes x)))
    (hfile : gs.kind? p = some (.file bytes y))
    (hdirs : ∀ xs ys r, partsOf path = xs ++ ys → fs.trace false maxLinks [] xs = some r →
      gs.kind? r.2.reverse = some .dir) :
    gs.read path = .ok bytes := by
  have hne : path ≠ "" := by
    rintro rfl
    cases h
  have hwalk := walkParts_transfer hfs (walkParts_of_resolve h) hroot hfile hdirs
  rw [← resolve_eq hne (refusal?_of_resolve h)] at hwalk
  exact read_eq_ok_iff.mpr ⟨p,y,hwalk⟩

/-- A file is still read where directories are kept and the file itself is unchanged. -/
theorem read_of_kept (hfs : fs.Linkless) (hroot : fs.kind? [] = some .dir) {bytes : List UInt8}
    (hkept : ∀ p, fs.kind? p = some .dir → gs.kind? p = some .dir) (h : fs.read path = .ok bytes)
    (hfile : ∀ p n x, fs.stat path = .ok (p, n) → fs.kind? p = some (.file bytes x) →
      gs.kind? p = some (.file bytes x)) :
    gs.read path = .ok bytes := by
  obtain ⟨p,x,hresolve⟩ := read_eq_ok_iff.mp h
  have hk := kind?_of_find? (find?_of_resolve hroot hresolve)
  have hstat : fs.stat path = .ok (p, .file bytes x) := by
    rw [stat, hresolve]
    rfl
  refine read_transfer hfs hroot hresolve (hfile p _ x hstat hk) fun xs ys r _ hr => ?_
  exact hkept _ (kind?_of_trace hroot hr hroot)

/-- A file that is read now was read before directories were added, unless its path goes up from an
added one. -/
theorem read_of_added (hfs : fs.Linkless) (hgs : gs.Linkless) (hroot : fs.kind? [] = some .dir)
    (hroot' : gs.kind? [] = some .dir) {bytes : List UInt8} (h : gs.read path = .ok bytes)
    (hfile : ∀ p n x, gs.stat path = .ok (p, n) → gs.kind? p = some (.file bytes x) →
      fs.kind? p = some (.file bytes x))
    (hup : ∀ xs ys, partsOf path = xs ++ ".." :: ys → gs.trace false maxLinks [] xs ≠ none →
      fs.trace false maxLinks [] xs ≠ none) :
    fs.read path = .ok bytes := by
  obtain ⟨p,x,hresolve⟩ := read_eq_ok_iff.mp h
  have hk : gs.kind? p = some (.file bytes x) := kind?_of_find? (find?_of_resolve hroot' hresolve)
  have hstat : gs.stat path = .ok (p, .file bytes x) := by
    rw [stat, hresolve]
    rfl
  have hfile := hfile p _ x hstat hk
  have hwalk := walkParts_of_resolve hresolve
  refine read_transfer hgs hroot' hresolve hfile fun xs ys r hxs hr => ?_
  by_cases hys : ".." ∈ ys
  -- where the path goes up later, its directories were there before
  · obtain ⟨zs,ws,rfl⟩ := List.append_of_mem hys
    rw [← List.append_assoc] at hxs
    rw [hxs] at hwalk
    obtain ⟨r',hr',-⟩ := walkParts_append (by simp) hwalk
    have hthere := hup (xs ++ zs) ws hxs (by simp [hr'])
    rw [trace_append] at hthere
    cases hbefore : fs.trace false maxLinks [] xs with
    | none => simp [hbefore] at hthere
    | some r'' =>
      rw [trace_settle hgs hr, ← trace_settle hfs hbefore]
      exact kind?_of_trace hroot hbefore hroot
  -- and else the file is below them
  · have hp := walkParts_settle hgs hwalk
    rw [hxs, settle_append, settle_down hys, List.reverse_append, List.reverse_reverse] at hp
    have hr2 : r.2 = settle [] xs := by rw [trace_settle hgs hr]
    rw [← hr2] at hp
    by_cases hnil : real ys = []
    · have hdir := kind?_of_trace hroot' hr hroot'
      rw [hnil, List.append_nil] at hp
      rw [← hp, hk] at hdir
      cases hdir
    · rw [hp] at hfile
      exact kind?_above hnil (by simp [hfile])

end FileSystem

end DocSnapshot
