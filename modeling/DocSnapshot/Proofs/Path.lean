import DocSnapshot.Discovery
import DocSnapshot.FileSystem.Artifact
import DocSnapshot.Proofs.Text.Split

/-! Paths as the names they lead through. Joining paths appends their names, a parent lacks the last
one, and a temporary file stands beside its target. -/
namespace DocSnapshot

namespace Path
open FileSystem (partsOf)
open Text

def isReal (part : String) : Bool := !(part = "" || part = ".")

def real (parts : List String) : List String := parts.filter isReal

def names (path : String) : List String := real (partsOf path)

/-- Whether a file or directory can be named so. -/
def isName (s : String) : Bool := isReal s && s ≠ ".." && !s.toList.contains '/'

private theorem length_filter_splitOn (s : List Char) :
    ((s.splitOn '/').filter (!isIdle ·)).length ≤ s.length := by
  induction s with
  | nil => simp [isIdle]
  | cons c rest ih =>
    rw [List.splitOn_cons_eq_if_modifyHead]
    split
    · rw [List.filter_cons_of_neg (by simp [isIdle]), List.length_cons]
      omega
    · obtain ⟨part,parts,hsplit⟩ := List.exists_cons_of_ne_nil (List.splitOn_ne_nil '/' rest)
      have hle := ((List.sublist_cons_self part parts).filter (!isIdle ·)).length_le
      rw [hsplit] at ih ⊢
      rw [List.modifyHead_cons, List.filter_cons, List.length_cons]
      split
      · rw [List.length_cons]
        omega
      · omega

private theorem splitOn_cons_dot (s : List Char) :
    ('.' :: s).splitOn '/' = (s.splitOn '/').modifyHead ('.' :: ·) := by
  simp [List.splitOn_cons_eq_if_modifyHead]

/-- A path that ends with a name, below directories given by their names. -/
def Leads (path : String) (dirs : List String) (name : String) : Prop :=
  ∃ above, partsOf path = above ++ [name] ∧ real above = dirs

theorem not_idle_of_isName {s : String} (h : isName s = true) :
    ¬(s = "" || s = ".") = true ∧ s ≠ ".." := by
  simp only [isName, isReal, Bool.and_eq_true, Bool.not_eq_true'] at h
  exact ⟨by simp [h.1.1],of_decide_eq_true h.1.2⟩

private theorem isReal_ofList (part : List Char) : isReal (String.ofList part) = !isIdle part := by
  have hempty : String.ofList part = "" ↔ part = [] := @String.ofList_inj part []
  have hdot : String.ofList part = "." ↔ part = ['.'] := @String.ofList_inj part ['.']
  simp only [isReal, isIdle, hempty, hdot]

private theorem real_map_ofList (parts : List (List Char)) :
    real (parts.map String.ofList) = (parts.filter (!isIdle ·)).map String.ofList := by
  rw [real, List.filter_map]
  congr 1
  exact List.filter_congr fun part _ => isReal_ofList part

theorem length_names_le (path : String) : (names path).length ≤ path.length := by
  rw [names, partsOf, real_map_ofList, List.length_map]
  exact length_filter_splitOn path.toList

@[simp] theorem real_append (xs ys : List String) : real (xs ++ ys) = real xs ++ real ys :=
  List.filter_append ..

theorem partsOf_ne_nil (path : String) : partsOf path ≠ [] := by
  simp [partsOf]

theorem partsOf_inj {s t : String} (h : partsOf s = partsOf t) : s = t := by
  have hsplit : s.toList.splitOn '/' = t.toList.splitOn '/' :=
    (List.map_inj_right fun _ _ => String.ofList_inj.mp).mp h
  have hjoin := congrArg (List.intercalate ['/']) hsplit
  rw [List.intercalate_splitOn, List.intercalate_splitOn] at hjoin
  exact String.toList_inj.mp hjoin

private theorem slash_not_mem {name : String} (h : isName name = true) : '/' ∉ name.toList := by
  simp_all [isName]

theorem partsOf_name {name : String} (h : isName name = true) : partsOf name = [name] := by
  simp [partsOf, List.splitOn_eq_singleton (slash_not_mem h)]

/-- Joining puts the parts of a path behind those of another, one slash at the end apart. -/
theorem partsOf_join_cases (base : String) {path : String} (h : isAbsolute path = false) :
    ∃ above, partsOf (join base path) = above ++ partsOf path ∧
      (base = "" ∧ above = [] ∨ partsOf base = above ∨ partsOf base = above ++ [""]) := by
  rw [join, h, Bool.false_or]
  split
  · next hempty => exact ⟨[],rfl,.inl ⟨String.isEmpty_iff.mp hempty,rfl⟩⟩
  · split
    · next hlast =>
      obtain ⟨init,hinit⟩ := List.getLast?_eq_some_iff.mp hlast
      refine ⟨(init.splitOn '/').map String.ofList,?_,.inr (.inr ?_)⟩
      · rw [partsOf, String.toList_append, hinit, List.append_assoc, List.singleton_append,
          List.splitOn_append_cons_self, List.map_append]
        rfl
      · rw [partsOf, hinit, List.splitOn_append_cons_self, List.map_append]
        rfl
    · refine ⟨partsOf base,?_,.inr (.inl rfl)⟩
      rw [partsOf, String.toList_append, String.toList_append, List.append_assoc]
      exact (congrArg _ (List.splitOn_append_cons_self ..)).trans (List.map_append ..)

/-- Joining puts the parts of a path behind those of another, and nothing else that leads
anywhere. -/
theorem partsOf_join (base : String) {path : String} (h : isAbsolute path = false) :
    ∃ above, partsOf (join base path) = above ++ partsOf path ∧ real above = names base := by
  obtain ⟨above,hjoin,⟨rfl,rfl⟩ | hbase | hbase⟩ := partsOf_join_cases base h
  · exact ⟨[],hjoin,rfl⟩
  · exact ⟨above,hjoin,by rw [names, hbase]⟩
  · refine ⟨above,hjoin,?_⟩
    rw [names, hbase, real_append]
    exact (List.append_nil _).symm

theorem prefix_join (base : String) {path : String} (h : isAbsolute path = false) :
    base.toList <+: (join base path).toList := by
  rw [join, h, Bool.false_or]
  split
  · next hempty =>
    rw [String.isEmpty_iff.mp hempty]
    exact List.nil_prefix
  · split
    · rw [String.toList_append]
      exact List.prefix_append ..
    · rw [String.toList_append, String.toList_append, List.append_assoc]
      exact List.prefix_append ..

theorem join_ne_empty {base : String} (hbase : base ≠ "") (path : String) :
    join base path ≠ "" := by
  intro hempty
  cases habs : isAbsolute path with
  | true =>
    rw [join, habs, Bool.true_or, if_pos rfl] at hempty
    rw [hempty] at habs
    cases habs
  | false =>
    have hprefix := prefix_join base habs
    rw [hempty] at hprefix
    exact hbase (String.toList_inj.mp (List.prefix_nil.mp hprefix))

private theorem dropIdleEnd_append (parts : List (List Char)) :
    ∃ idle, parts = dropIdleEnd parts ++ idle ∧ ∀ part ∈ idle, isIdle part = true := by
  refine ⟨(parts.reverse.takeWhile isIdle).reverse,?_,?_⟩
  · rw [dropIdleEnd, ← List.reverse_append, List.takeWhile_append_dropWhile, List.reverse_reverse]
  · intro part hpart
    exact List.all_eq_true.mp List.all_takeWhile part (List.mem_reverse.mp hpart)

private theorem filter_dropIdleEnd (parts : List (List Char)) :
    (dropIdleEnd parts).filter (!isIdle ·) = parts.filter (!isIdle ·) := by
  obtain ⟨idle,heq,hidle⟩ := dropIdleEnd_append parts
  have hnone : idle.filter (!isIdle ·) = [] := by simpa using hidle
  conv => rhs; rw [heq, List.filter_append, hnone, List.append_nil]

private theorem not_idle_of_dropIdleEnd {parts init : List (List Char)} {last : List Char}
    (h : dropIdleEnd parts = init ++ [last]) : isIdle last = false := by
  have hhead := List.head?_dropWhile_not isIdle parts.reverse
  have : (parts.reverse.dropWhile isIdle) = last :: init.reverse := by
    rw [← List.reverse_reverse (parts.reverse.dropWhile isIdle)]
    exact (congrArg List.reverse h).trans (by simp)
  simpa [this] using hhead

private theorem filter_dropLast_dropIdleEnd (parts : List (List Char)) :
    (dropIdleEnd parts).dropLast.filter (!isIdle ·) = (parts.filter (!isIdle ·)).dropLast := by
  rw [← filter_dropIdleEnd parts]
  rcases List.eq_nil_or_concat (dropIdleEnd parts) with hnil | ⟨init,last,hlast⟩
  · simp [hnil]
  · rw [List.concat_eq_append] at hlast
    rw [hlast, List.dropLast_concat, List.filter_append]
    simp [not_idle_of_dropIdleEnd hlast]

private theorem prefix_dropIdleEnd_dropLast (parts : List (List Char)) :
    dropIdleEnd (dropIdleEnd parts).dropLast <+: parts := by
  obtain ⟨idle,heq,-⟩ := dropIdleEnd_append parts
  obtain ⟨more,hmore,-⟩ := dropIdleEnd_append (dropIdleEnd parts).dropLast
  exact .trans ⟨more,hmore.symm⟩ ((List.dropLast_prefix _).trans ⟨idle,heq.symm⟩)

private theorem cut_cases (path : List Char) :
    ((cut path).1 = ['/'] ∧ path.splitOn '/' = [] :: (cut path).2) ∨
    ((cut path).1 = ['.'] ∧ path = ['.'] ∧ (cut path).2 = []) ∨
    ((cut path).1 = ['.'] ∧ ∃ rest, path.splitOn '/' = ['.'] :: rest ∧ (cut path).2 = [] :: rest) ∨
    ((cut path).1 = [] ∧ path.splitOn '/' = (cut path).2) := by
  fun_cases cut path with
  | case1 rest => exact .inl ⟨rfl,splitOn_cons_self '/' rest⟩
  | case2 => exact .inr (.inl ⟨rfl,rfl,rfl⟩)
  | case3 rest => exact .inr (.inr (.inl ⟨rfl,_,by simp [splitOn_cons_dot, splitOn_cons_self],rfl⟩))
  | case4 => exact .inr (.inr (.inr ⟨rfl,rfl⟩))

private theorem filter_cut (path : List Char) :
    (cut path).2.filter (!isIdle ·) = (path.splitOn '/').filter (!isIdle ·) := by
  rcases cut_cases path with ⟨-,h⟩ | ⟨-,rfl,h⟩ | ⟨-,rest,h,hparts⟩ | ⟨-,h⟩
  · simp [h, isIdle]
  · simp [h, isIdle, List.splitOn_cons_eq_if_modifyHead]
  · simp [h, hparts, isIdle]
  · rw [h]

private theorem filter_splitOn_intercalate {parts : List (List Char)}
    (h : ∀ part ∈ parts, '/' ∉ part) :
    ((List.intercalate ['/'] parts).splitOn '/').filter (!isIdle ·) = parts.filter (!isIdle ·) := by
  cases parts with
  | nil => rfl
  | cons part rest => rw [List.splitOn_intercalate '/' h (by simp)]

private theorem slash_not_mem_cut (path : List Char) {part : List Char} (h : part ∈ (cut path).2) :
    '/' ∉ part := by
  have hsplit : ∀ part ∈ path.splitOn '/', '/' ∉ part := fun _ => not_mem_of_mem_splitOn
  rcases cut_cases path with ⟨-,hparts⟩ | ⟨-,-,hparts⟩ | ⟨-,rest,hrest,hparts⟩ | ⟨-,hparts⟩
  · exact hsplit part (hparts ▸ List.mem_cons_of_mem _ h)
  · simp [hparts] at h
  · rw [hparts] at h
    rcases List.mem_cons.mp h with rfl | h
    · simp
    · exact hsplit part (hrest ▸ List.mem_cons_of_mem _ h)
  · exact hsplit part (hparts ▸ h)

private theorem filter_marked (path : List Char) {kept : List (List Char)}
    (h : kept <+: (cut path).2) :
    (((cut path).1 ++ List.intercalate ['/'] kept).splitOn '/').filter (!isIdle ·) =
      kept.filter (!isIdle ·) := by
  have hkept : ∀ part ∈ kept, '/' ∉ part := fun part hpart =>
    slash_not_mem_cut path (h.subset hpart)
  rcases cut_cases path with ⟨hmark,-⟩ | ⟨hmark,-,hparts⟩ | ⟨hmark,rest,-,hparts⟩ | ⟨hmark,-⟩
  · rw [hmark, ← filter_splitOn_intercalate hkept]
    simp [splitOn_cons_self, isIdle]
  · rw [hparts, List.prefix_nil] at h
    simp [h, hmark, isIdle, splitOn_cons_dot]
  · rw [hparts] at h
    rcases List.prefix_cons_iff.mp h with rfl | ⟨later,rfl,hlater⟩
    · simp [hmark, isIdle, splitOn_cons_dot]
    · have hlate : ∀ part ∈ later, '/' ∉ part := fun p hp => hkept p (List.mem_cons_of_mem _ hp)
      cases later with
      | nil => simp [hmark, isIdle, splitOn_cons_dot]
      | cons part later =>
        rw [hmark, List.intercalate_cons_cons, List.filter_cons_of_neg (by simp [isIdle]),
          ← filter_splitOn_intercalate hlate]
        simp [splitOn_cons_dot, splitOn_cons_self, isIdle]
  · rw [hmark, List.nil_append, filter_splitOn_intercalate hkept]

theorem names_parent? {path dir : String} (h : parent? path = some dir) :
    names dir = (names path).dropLast := by
  rw [parent?] at h
  simp only at h
  have hnames : names path = ((cut path.toList).2.filter (!isIdle ·)).map String.ofList := by
    rw [filter_cut]
    exact real_map_ofList _
  split at h
  · next hnil =>
    have hnone : (cut path.toList).2.filter (!isIdle ·) = [] := by
      rw [← filter_dropIdleEnd, hnil]
      rfl
    split at h
    · rw [hnames, hnone, ← Option.some.inj h]
      rfl
    · simp at h
  · next part rest hparts =>
    rw [← hparts] at h
    have hkept := prefix_dropIdleEnd_dropLast (cut path.toList).2
    rw [← Option.some.inj h, names, partsOf, String.toList_ofList, real_map_ofList,
      filter_marked path.toList hkept, filter_dropIdleEnd, filter_dropLast_dropIdleEnd, hnames,
      List.map_dropLast]

private theorem cut_join (path : List Char) :
    (cut path).1 ++ List.intercalate ['/'] (cut path).2 = path := by
  fun_cases cut path with
  | case1 rest => simp
  | case2 => rfl
  | case3 rest =>
    rw [List.intercalate_cons_of_ne_nil (List.splitOn_ne_nil '/' rest), List.intercalate_splitOn]
    rfl
  | case4 => simp

private theorem prefix_intercalate {kept parts : List (List Char)} (h : kept <+: parts) :
    List.intercalate ['/'] kept <+: List.intercalate ['/'] parts := by
  induction kept generalizing parts with
  | nil => exact List.nil_prefix
  | cons part kept ih =>
    obtain ⟨more,rfl⟩ := h
    cases kept with
    | nil =>
      cases more with
      | nil => exact List.prefix_refl _
      | cons next more => simp
    | cons second kept =>
      have hrest := ih (List.prefix_append (second :: kept) more)
      rw [List.cons_append, List.cons_append, List.intercalate_cons_cons,
        List.intercalate_cons_cons]
      exact (List.prefix_append_right_inj (part ++ ['/'])).mpr hrest

/-- A parent is what its path begins with. -/
theorem prefix_of_parent? {path dir : String} (h : parent? path = some dir) :
    dir.toList <+: path.toList := by
  rw [parent?] at h
  simp only at h
  split at h
  · split at h
    · rw [← Option.some.inj h]
      exact List.nil_prefix
    · cases h
  · next part rest hparts =>
    rw [← hparts] at h
    rw [← Option.some.inj h, String.toList_ofList]
    conv => rhs; rw [← cut_join path.toList]
    exact (List.prefix_append_right_inj _).mpr (prefix_intercalate (prefix_dropIdleEnd_dropLast _))

private theorem splitOn_marked (path : List Char) {init : List (List Char)} {last : List Char}
    (h : init ++ [last] <+: (cut path).2) (hlast : isIdle last = false) :
    ∃ front, ((cut path).1 ++ List.intercalate ['/'] (init ++ [last])).splitOn '/' =
      front ++ [last] := by
  have hslash := fun part (hpart : part ∈ init ++ [last]) => slash_not_mem_cut path (h.subset hpart)
  have hsplit : (List.intercalate ['/'] (init ++ [last])).splitOn '/' = init ++ [last] :=
    List.splitOn_intercalate '/' hslash (by simp)
  rcases cut_cases path with ⟨hmark,-⟩ | ⟨-,-,hparts⟩ | ⟨hmark,rest,-,hparts⟩ | ⟨hmark,-⟩
  · exact ⟨[] :: init,by rw [hmark, List.singleton_append, splitOn_cons_self, hsplit]; rfl⟩
  · rw [hparts, List.prefix_nil] at h
    simp at h
  · rw [hparts] at h
    cases init with
    | nil =>
      obtain ⟨more,hmore⟩ := h
      cases hmore
      simp [isIdle] at hlast
    | cons first init =>
      obtain ⟨more,hmore⟩ := h
      cases hmore
      refine ⟨['.'] :: init,?_⟩
      have hlater : (List.intercalate ['/'] (init ++ [last])).splitOn '/' = init ++ [last] :=
        List.splitOn_intercalate '/'
          (fun part hpart => hslash part (List.mem_cons_of_mem _ hpart)) (by simp)
      have hjoin : List.intercalate ['/'] (([] :: init) ++ [last]) =
          '/' :: List.intercalate ['/'] (init ++ [last]) := by
        cases init <;> simp
      rw [hmark, hjoin, List.singleton_append]
      simp [splitOn_cons_dot, splitOn_cons_self, hlater]
  · exact ⟨init,by rw [hmark, List.nil_append, hsplit]⟩

theorem names_leads {path name : String} {dirs : List String} (h : Leads path dirs name)
    (hname : isName name = true) : names path = dirs ++ [name] := by
  obtain ⟨above,hparts,hdirs⟩ := h
  have hreal : isReal name = true := by
    simp only [isName, Bool.and_eq_true] at hname
    exact hname.1.1
  rw [names, hparts, real_append, hdirs]
  simp [real, hreal]

/-- A parent ends with its last name. -/
theorem leads_of_parent? {path dir name : String} {dirs : List String} (h : parent? path = some dir)
    (hnames : names dir = dirs ++ [name]) : Leads dir dirs name := by
  rw [parent?] at h
  simp only at h
  split at h
  · split at h
    · rw [← Option.some.inj h] at hnames
      simp [names, partsOf, real, isReal] at hnames
    · cases h
  · next part rest hparts =>
    rw [← hparts] at h
    have hkept := prefix_dropIdleEnd_dropLast (cut path.toList).2
    have hdir := Option.some.inj h
    rcases List.eq_nil_or_concat (dropIdleEnd (dropIdleEnd (cut path.toList).2).dropLast) with
      hnil | ⟨init,last,hlast⟩
    · rw [hnil] at hdir hkept
      rw [← hdir, names, partsOf, String.toList_ofList, real_map_ofList,
        filter_marked path.toList hkept] at hnames
      simp at hnames
    · rw [List.concat_eq_append] at hlast
      have hreal := not_idle_of_dropIdleEnd hlast
      rw [hlast] at hdir hkept
      obtain ⟨front,hfront⟩ := splitOn_marked path.toList hkept hreal
      have hdirParts : partsOf dir = front.map String.ofList ++ [String.ofList last] := by
        rw [← hdir, partsOf, String.toList_ofList, hfront, List.map_append]
        rfl
      have hlastReal : real [String.ofList last] = [String.ofList last] := by
        simp [real, isReal_ofList, hreal]
      rw [names, hdirParts, real_append, hlastReal] at hnames
      obtain ⟨hdirs,hname⟩ := List.append_inj' hnames rfl
      obtain rfl := List.singleton_inj.mp hname
      exact ⟨_,hdirParts,hdirs⟩

theorem Leads.parent? {path name : String} {dirs : List String} (h : Leads path dirs name)
    (hname : isName name = true) : ∃ dir, Path.parent? path = some dir ∧ names dir = dirs := by
  have hnames := names_leads h hname
  have hsome : ∃ dir, Path.parent? path = some dir := by
    rw [Path.parent?]
    simp only
    split
    · next hnil =>
      have hnone : (path.toList.splitOn '/').filter (!isIdle ·) = [] := by
        rw [← filter_cut, ← filter_dropIdleEnd, hnil]
        rfl
      rw [names, partsOf, real_map_ofList, hnone] at hnames
      simp at hnames
    · exact ⟨_,rfl⟩
  obtain ⟨dir,hdir⟩ := hsome
  exact ⟨dir,hdir,by rw [names_parent? hdir, hnames, List.dropLast_concat]⟩

theorem Leads.fileName? {path name : String} {dirs : List String} (h : Leads path dirs name)
    (hname : isName name = true) : Path.fileName? path = some name := by
  have hnames := names_leads h hname
  rw [names, partsOf, real_map_ofList, ← filter_cut] at hnames
  have hlast := congrArg List.getLast? hnames
  rw [List.getLast?_map, List.getLast?_concat, Option.map_eq_some_iff] at hlast
  obtain ⟨part,hpart,rfl⟩ := hlast
  have hup : part ≠ ['.', '.'] := by
    rintro rfl
    simp [isName] at hname
  simp [Path.fileName?, components, List.getLast?_append, List.getLast?_map, hpart, component, hup]

theorem leads_join (base : String) {path name : String} {dirs : List String}
    (h : Leads path dirs name) (habs : isAbsolute path = false) :
    Leads (join base path) (names base ++ dirs) name := by
  obtain ⟨above,hparts,hdirs⟩ := h
  obtain ⟨before,hjoin,hbase⟩ := partsOf_join base habs
  exact ⟨before ++ above,by rw [hjoin, hparts, List.append_assoc],by rw [real_append, hbase, hdirs]⟩

def tempName (name : String) : String := "." ++ name ++ ".tmp"

theorem tempName_ne (name : String) : tempName name ≠ name := by
  intro heq
  have hlen := congrArg (fun s => s.toList.length) heq
  simp [tempName] at hlen
  omega

theorem tempName_inj {name other : String} (h : tempName name = tempName other) :
    name = other := by
  have hchars := congrArg String.toList h
  rw [tempName, tempName, String.toList_append, String.toList_append, String.toList_append,
    String.toList_append] at hchars
  exact String.toList_inj.mp (List.append_cancel_left (List.append_cancel_right hchars))

private theorem isName_of_length {s : String} (hlen : 2 < s.toList.length)
    (hslash : '/' ∉ s.toList) : isName s = true := by
  have hshort : ∀ t : String, t.toList.length ≤ 2 → s ≠ t := by
    rintro t ht rfl
    omega
  simp [isName, isReal, hshort "" (by decide), hshort "." (by decide), hshort ".." (by decide),
    hslash]

theorem isName_tempName {name : String} (h : isName name = true) :
    isName (tempName name) = true :=
  isName_of_length (by simp [tempName]) (by simp [tempName, slash_not_mem h])

theorem isName_recordName {name : String} (h : isName name = true) :
    isName (recordPath name) = true :=
  isName_of_length (by simp [recordPath]) (by simp [recordPath, slash_not_mem h])

theorem Leads.tempPath {path name : String} {dirs : List String} (h : Leads path dirs name)
    (hname : isName name = true) : Leads (Artifact.tempPath path) dirs (tempName name) := by
  obtain ⟨dir,hdir,hdirs⟩ := h.parent? hname
  have htemp : Leads (tempName name) [] (tempName name) :=
    ⟨[],partsOf_name (isName_tempName hname),rfl⟩
  have habs : isAbsolute (tempName name) = false := by simp [isAbsolute, tempName]
  have hjoin := leads_join dir htemp habs
  rw [List.append_nil, hdirs] at hjoin
  rw [Artifact.tempPath, withFileName, h.fileName? hname, hdir]
  exact hjoin

theorem real_of_names {parts : List String} (h : ∀ part ∈ parts, isName part = true) :
    real parts = parts := by
  refine List.filter_eq_self.mpr fun part hpart => ?_
  have := h part hpart
  simp_all [isName]

theorem isAbsolute_of_names {path name : String} {dirs : List String}
    (hparts : partsOf path = dirs ++ [name]) (h : ∀ part ∈ dirs ++ [name], isName part = true) :
    isAbsolute path = false := by
  refine Bool.eq_false_iff.mpr fun habs => ?_
  obtain ⟨rest,hrest⟩ := List.head?_eq_some_iff.mp (of_decide_eq_true habs)
  rw [partsOf, hrest, splitOn_cons_self, List.map_cons] at hparts
  have hempty := h (String.ofList []) (hparts ▸ List.mem_cons_self)
  simp [isName, isReal] at hempty

theorem partsOf_slashed {path : List String} (hne : path ≠ [])
    (h : ∀ name ∈ path, isName name = true) : partsOf (Scan.slashed path) = path := by
  have hslash : ∀ part ∈ path.map String.toList, '/' ∉ part := by
    intro part hpart
    obtain ⟨name,hname,rfl⟩ := List.mem_map.mp hpart
    exact slash_not_mem (h name hname)
  rw [partsOf, Scan.slashed, String.toList_ofList,
    List.splitOn_intercalate '/' hslash (by simpa using hne)]
  simp [Function.comp_def]

/-- A path of names is not absolute. -/
theorem isAbsolute_slashed {path : List String} (h : ∀ name ∈ path, isName name = true) :
    isAbsolute (Scan.slashed path) = false := by
  rcases List.eq_nil_or_concat path with rfl | ⟨dirs,name,rfl⟩
  · rfl
  · rw [List.concat_eq_append] at h ⊢
    exact isAbsolute_of_names (partsOf_slashed (by simp) h) h

theorem names_slashed {path : List String} (h : ∀ name ∈ path, isName name = true) :
    names (Scan.slashed path) = path := by
  by_cases hne : path = []
  · rw [hne]
    decide
  · rw [names, partsOf_slashed hne h, real_of_names h]

theorem slashed_inj {path other : List String} (h : ∀ name ∈ path, isName name = true)
    (hother : ∀ name ∈ other, isName name = true) :
    Scan.slashed path = Scan.slashed other ↔ path = other := by
  refine ⟨fun heq => ?_,congrArg _⟩
  rw [← names_slashed h, heq, names_slashed hother]

theorem slashed_concat {dirs : List String} (hne : dirs ≠ []) (name : String) :
    Scan.slashed (dirs ++ [name]) = Scan.slashed dirs ++ "/" ++ name := by
  apply String.toList_inj.mp
  simp [Scan.slashed, @intercalate_concat (dirs.map String.toList) (by simpa using hne)]

/-- The characters of a path are slashes and those of its names. -/
theorem mem_slashed {path : List String} {c : Char} (h : c ∈ (Scan.slashed path).toList) :
    c = '/' ∨ ∃ name ∈ path, c ∈ name.toList := by
  rw [Scan.slashed, String.toList_ofList] at h
  rcases mem_intercalate h with hslash | ⟨part,hpart,hin⟩
  · exact .inl (List.mem_singleton.mp hslash)
  · obtain ⟨name,hname,rfl⟩ := List.mem_map.mp hpart
    exact .inr ⟨name,hname,hin⟩

/-- The last name of a path stands behind its last slash. -/
theorem getLast?_iff_slashed {path : List String} {name : String} (hname : isName name = true)
    (h : ∀ part ∈ path, isName part = true) : path.getLast? = some name ↔
      (Scan.slashed path).toList = name.toList ∨
        ∃ before, (Scan.slashed path).toList = before ++ '/' :: name.toList := by
  constructor
  · intro hlast
    obtain ⟨dirs,rfl⟩ := List.getLast?_eq_some_iff.mp hlast
    by_cases hdirs : dirs = []
    · simp [hdirs, Scan.slashed]
    · exact .inr ⟨(Scan.slashed dirs).toList,by simp [slashed_concat hdirs]⟩
  · intro htext
    have hsplit : ∃ above, partsOf (Scan.slashed path) = above ++ [name] := by
      rcases htext with heq | ⟨before,heq⟩
      · exact ⟨[],by rw [String.toList_inj.mp heq, partsOf_name hname]; rfl⟩
      · refine ⟨(before.splitOn '/').map String.ofList,?_⟩
        rw [partsOf, heq, List.splitOn_append_cons_self,
          List.splitOn_eq_singleton (slash_not_mem hname)]
        simp
    obtain ⟨above,hparts⟩ := hsplit
    have hreal : real [name] = [name] := real_of_names (by simpa using hname)
    rw [← names_slashed h, names, hparts, real_append, hreal, List.getLast?_concat]

private theorem not_isIdle_of_isName {name : String} (h : isName name = true) :
    isIdle name.toList = false := by
  have hreal := isReal_ofList name.toList
  simp only [isName, Bool.and_eq_true] at h
  rw [String.ofList_toList, h.1.1] at hreal
  simpa using hreal.symm

private theorem splitOn_slashed {path : List String} (hne : path ≠ [])
    (h : ∀ name ∈ path, isName name = true) :
    (Scan.slashed path).toList.splitOn '/' = path.map String.toList := by
  have hparts := congrArg (List.map String.toList) (partsOf_slashed hne h)
  simpa [partsOf, Function.comp_def] using hparts

private theorem cut_slashed {path : List String} (hne : path ≠ [])
    (h : ∀ name ∈ path, isName name = true) :
    cut (Scan.slashed path).toList = ([], path.map String.toList) := by
  have hsplit := splitOn_slashed hne h
  have hreal : ∀ part ∈ path.map String.toList, isIdle part = false := by
    intro part hpart
    obtain ⟨name,hname,rfl⟩ := List.mem_map.mp hpart
    exact not_isIdle_of_isName (h name hname)
  rcases cut_cases (Scan.slashed path).toList with ⟨-,hs⟩ | ⟨-,hs,-⟩ | ⟨-,rest,hs,-⟩ | ⟨hm,hs⟩
  · have hidle := hreal [] (by rw [← hsplit, hs]; exact List.mem_cons_self)
    simp [isIdle] at hidle
  · rw [hs, List.splitOn_eq_singleton (by decide)] at hsplit
    have hidle := hreal ['.'] (by rw [← hsplit]; exact List.mem_cons_self)
    simp [isIdle] at hidle
  · have hidle := hreal ['.'] (by rw [← hsplit, hs]; exact List.mem_cons_self)
    simp [isIdle] at hidle
  · exact Prod.ext hm (hs.symm.trans hsplit)

private theorem dropIdleEnd_names {path : List String} (h : ∀ name ∈ path, isName name = true) :
    dropIdleEnd (path.map String.toList) = path.map String.toList := by
  rcases List.eq_nil_or_concat path with rfl | ⟨dirs,name,rfl⟩
  · rfl
  · simp [dropIdleEnd, not_isIdle_of_isName (h name (by simp))]

/-- The path above a path of names lacks the last of them. -/
theorem parent?_slashed {dirs : List String} {name : String}
    (h : ∀ part ∈ dirs ++ [name], isName part = true) :
    parent? (Scan.slashed (dirs ++ [name])) = some (Scan.slashed dirs) := by
  have hdirs := dropIdleEnd_names fun part hpart => h part (List.mem_append_left _ hpart)
  obtain ⟨first,rest,hfirst⟩ := List.exists_cons_of_ne_nil
    (show (dirs ++ [name]).map String.toList ≠ [] by simp)
  have hends := dropIdleEnd_names h
  rw [hfirst] at hends
  rw [parent?, cut_slashed (by simp) h]
  simp only [hfirst, hends]
  rw [← hfirst, List.map_append, List.map_singleton, List.dropLast_concat, hdirs]
  rfl

theorem parent?_slashed_nil : parent? (Scan.slashed []) = none := by decide

private theorem intercalate_concat_append (separator part tail : List Char)
    (parts : List (List Char)) :
    separator.intercalate (parts ++ [part]) ++ tail =
      separator.intercalate (parts ++ [part ++ tail]) := by
  by_cases hne : parts = []
  · simp [hne]
  · rw [intercalate_concat hne, intercalate_concat hne, List.append_assoc]

theorem slashed_append (dirs : List String) (name tail : String) :
    Scan.slashed (dirs ++ [name]) ++ tail = Scan.slashed (dirs ++ [name ++ tail]) := by
  apply String.toList_inj.mp
  simp [Scan.slashed, intercalate_concat_append]

theorem recordPath_slashed (dirs : List String) (name : String) :
    recordPath (Scan.slashed (dirs ++ [name])) = Scan.slashed (dirs ++ [recordPath name]) :=
  slashed_append dirs name ".json"

/-- What is added to a path without a slash is added to its last part. -/
theorem partsOf_append (path : String) {tail : String} (h : '/' ∉ tail.toList) :
    ∃ dirs name, partsOf (path ++ tail) = dirs ++ [name ++ tail] ∧ '/' ∉ name.toList := by
  obtain ⟨dirs,name,hsplit⟩ :=
    (List.eq_nil_or_concat (path.toList.splitOn '/')).resolve_left (List.splitOn_ne_nil _ _)
  rw [List.concat_eq_append] at hsplit
  have hslash : ∀ part ∈ dirs ++ [name], '/' ∉ part := fun part hpart =>
    not_mem_of_mem_splitOn (hsplit ▸ hpart)
  have hjoined : (path ++ tail).toList =
      List.intercalate ['/'] (dirs ++ [name ++ tail.toList]) := by
    rw [← intercalate_concat_append, ← hsplit, List.intercalate_splitOn, String.toList_append]
  refine ⟨dirs.map String.ofList,String.ofList name,?_,by simpa using hslash name (by simp)⟩
  have hfree : ∀ part ∈ dirs ++ [name ++ tail.toList], '/' ∉ part := by
    intro part hpart
    rcases List.mem_append.mp hpart with hdir | hlast
    · exact hslash part (List.mem_append_left _ hdir)
    · rw [List.mem_singleton.mp hlast]
      simpa [h] using hslash name (by simp)
  rw [partsOf, hjoined, List.splitOn_intercalate '/' hfree (by simp)]
  simp [String.ofList_append]

/-- The record of a source keeps to the name of the source. -/
theorem partsOf_recordPath_concat (source : String) :
    ∃ dirs name, partsOf (recordPath source) = dirs ++ [recordPath name] := by
  obtain ⟨dirs,name,hparts,-⟩ := @partsOf_append source ".json" (by decide)
  exact ⟨dirs,name,hparts⟩

private theorem cutName_append (before : List Char) {after : List Char} (hdot : '.' ∉ after) :
    cutName (before ++ '.' :: after) = if before = [] then none else some (before, after) := by
  have hall : ∀ c ∈ after.reverse, (decide (c ≠ '.')) = true := fun c hc =>
    decide_eq_true fun heq => hdot (heq ▸ List.mem_reverse.mp hc)
  have hafter : ((before ++ '.' :: after).reverse.takeWhile (· ≠ '.')).reverse = after := by
    rw [List.reverse_append, List.reverse_cons, List.append_assoc,
      List.takeWhile_append_of_pos hall]
    simp
  have htake : (before ++ '.' :: after).take ((before ++ '.' :: after).length - after.length - 1) =
      before := by
    rw [List.length_append, List.length_cons, show before.length + (after.length + 1) -
      after.length - 1 = before.length by omega, List.take_left]
  rw [cutName, hafter, htake]
  by_cases hne : before = [] <;> simp [hne]

private theorem cutName_of_not_mem {name : List Char} (h : '.' ∉ name) : cutName name = none := by
  simp [cutName, h]

private theorem isSource_append (path : String) {ending : List Char} (hslash : '/' ∉ ending)
    (hdot : '.' ∉ ending) (hlong : 1 < ending.length) (hne : ending ≠ ['p', 'y']) :
    isSource (path ++ String.ofList ('.' :: ending)) = false := by
  obtain ⟨dirs,name,hparts,hname⟩ := @partsOf_append path (String.ofList ('.' :: ending))
    (by simpa using hslash)
  have hleads : Leads (path ++ String.ofList ('.' :: ending)) (real dirs)
      (name ++ String.ofList ('.' :: ending)) := ⟨dirs,hparts,rfl⟩
  have hfile := hleads.fileName? (isName_of_length (by simp; omega) (by simp [hslash, hname]))
  have hcut := cutName_append name.toList hdot
  have hpy : String.ofList ending ≠ "py" := fun heq => hne (String.ofList_inj.mp (heq.trans rfl))
  rw [isSource, extension?, hfile]
  by_cases hnil : name.toList = [] <;> simp_all

/-- Sources are the files whose names end with `.py` behind something else. -/
theorem isSource_slashed_iff {dirs : List String} {name : String}
    (h : ∀ part ∈ dirs ++ [name], isName part = true) :
    isSource (Scan.slashed (dirs ++ [name])) = true ↔ ∃ stem, stem ≠ "" ∧ name = stem ++ ".py" := by
  have hleads : Leads (Scan.slashed (dirs ++ [name])) (real dirs) name :=
    ⟨dirs,partsOf_slashed (by simp) h,rfl⟩
  have hfile := hleads.fileName? (h name (by simp))
  constructor
  · intro hsource
    by_cases hdot : '.' ∈ name.toList
    · obtain ⟨after,before,hsplit,hafter⟩ :=
        List.eq_append_cons_of_mem (List.mem_reverse.mpr hdot)
      rw [← List.mem_reverse] at hafter
      have hname : name.toList = before.reverse ++ '.' :: after.reverse := by
        rw [← List.reverse_inj, hsplit]
        simp
      have hcut := cutName_append before.reverse hafter
      rw [← hname] at hcut
      by_cases hnil : before.reverse = []
      · simp [isSource, extension?, hfile, hcut, hnil] at hsource
      · have hpy : String.ofList after.reverse = "py" := by
          simpa [isSource, extension?, hfile, hcut, hnil] using hsource
        refine ⟨String.ofList before.reverse,fun hempty => hnil (String.ofList_inj.mp hempty),?_⟩
        rw [← String.toList_inj, hname, String.toList_append, String.toList_ofList,
          String.ofList_inj.mp (hpy.trans rfl : _ = String.ofList ['p', 'y'])]
        rfl
    · simp [isSource, extension?, hfile, cutName_of_not_mem hdot] at hsource
  · rintro ⟨stem,hne,rfl⟩
    have hcut := cutName_append stem.toList (show '.' ∉ ['p', 'y'] by decide)
    have hstem : stem.toList ≠ [] := fun hnil => hne (String.toList_inj.mp hnil)
    rw [if_neg hstem] at hcut
    have hchars : (stem ++ ".py").toList = stem.toList ++ '.' :: ['p', 'y'] := String.toList_append
    simp [isSource, extension?, hfile, hchars, hcut]

theorem isSource_recordPath (path : String) : isSource (recordPath path) = false :=
  @isSource_append path ['j', 's', 'o', 'n'] (by decide) (by decide) (by decide)
    (by decide)

theorem isSource_tempPath (dirs : List String) (name : String) :
    isSource (Scan.slashed (dirs ++ [tempName name])) = false := by
  rw [tempName, ← slashed_append]
  exact @isSource_append _ ['t', 'm', 'p'] (by decide) (by decide) (by decide)
    (by decide)

theorem recordPath_inj {source other : String} (h : recordPath source = recordPath other) :
    source = other := by
  have hchars := congrArg String.toList h
  rw [recordPath, recordPath, String.toList_append, String.toList_append] at hchars
  exact String.toList_inj.mp (List.append_cancel_right hchars)

theorem recordPath_ne_tempName (name other : String) : recordPath name ≠ tempName other := by
  intro heq
  have hlast := congrArg (fun s => s.toList.reverse.head?) heq
  simp only [recordPath, tempName, String.toList_append, List.reverse_append] at hlast
  simp at hlast

/-- Where the record of a source is kept. -/
theorem partsOf_recordPath {dirs : List String} {name : String}
    (h : ∀ part ∈ dirs ++ [name], isName part = true) :
    partsOf (recordPath (Scan.slashed (dirs ++ [name]))) = dirs ++ [recordPath name] := by
  rw [recordPath_slashed]
  refine partsOf_slashed (by simp) fun part hpart => ?_
  rcases List.mem_append.mp hpart with hdir | hlast
  · exact h part (List.mem_append_left _ hdir)
  · rw [List.mem_singleton.mp hlast]
    exact isName_recordName (h name (by simp))

end Path

end DocSnapshot
