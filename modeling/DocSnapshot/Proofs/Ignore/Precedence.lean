import DocSnapshot.Proofs.Path
import Mathlib.Data.List.Permutation

/-! Which rule decides on a file. Rules are tried at the file and then at the directories above it,
and of those that match at the nearest place the last one decides. A rule for a directory therefore
gives way to an earlier one for a file in it. -/
namespace DocSnapshot.Ignore

def Rule.matchesAt (r : Rule) (place : String × Bool) : Bool := r.matchesPath place.1 place.2

namespace Matcher
open DocSnapshot.Path (isName)
open DocSnapshot.Scan (slashed)
open FileSystem (partsOf)

/-- Where rules are tried for a file: at the file, then at the directories above it. -/
def places (m : Matcher) (path : String) : List (String × Bool) :=
  (m.relative path, false) :: (ancestors (m.relative path)).map (·, true)

def above (names : List String) : List (List String) :=
  (List.range names.length).reverse.map names.take

variable {names : List String} {m : Matcher}

private theorem above_concat (dirs : List String) (name : String) :
    above (dirs ++ [name]) = dirs :: above dirs := by
  rw [above, List.length_append, List.length_singleton, List.range_succ, List.reverse_append,
    List.reverse_singleton, List.singleton_append, List.map_cons, List.take_left, above]
  refine congrArg (dirs :: ·) (List.map_congr_left fun k hk => ?_)
  have hlt := List.mem_range.mp (List.mem_reverse.mp hk)
  exact List.take_append_of_le_length (Nat.le_of_lt hlt)

/-- A path leads through a directory if one of the paths above it ends with its name. -/
theorem mem_dropLast_iff {d : String} :
    d ∈ names.dropLast ↔ ∃ dir ∈ above names, dir.getLast? = some d := by
  induction names using List.reverseRecOn with
  | nil => simp [above]
  | append_singleton dirs name ih =>
    rw [List.dropLast_concat, above_concat, List.exists_mem_cons_iff, ← ih]
    rcases List.eq_nil_or_concat dirs with rfl | ⟨init,last,rfl⟩
    · simp
    · simp [eq_comm, or_comm]

private theorem go_slashed (h : ∀ name ∈ names, isName name = true) {n : Nat}
    (hn : names.length ≤ n) : ancestors.go (slashed names) n = (above names).map slashed := by
  induction names using List.reverseRecOn generalizing n with
  | nil => cases n <;> simp [ancestors.go, Path.parent?_slashed_nil, above]
  | append_singleton dirs name ih =>
    rw [List.length_append, List.length_singleton] at hn
    obtain ⟨k,rfl⟩ : ∃ k, n = k + 1 := ⟨n - 1,by omega⟩
    rw [ancestors.go, Path.parent?_slashed h, above_concat, List.map_cons]
    exact congrArg _ (ih (fun part hpart => h part (List.mem_append_left _ hpart)) (by omega))

/-- The directories above a path of names are its beginnings. -/
theorem ancestors_slashed (h : ∀ name ∈ names, isName name = true) :
    ancestors (slashed names) = (above names).map slashed := by
  have hlen := Path.length_names_le (slashed names)
  rw [Path.names_slashed h] at hlen
  exact go_slashed h (by omega)

private theorem not_slashes (hne : names ≠ []) (h : ∀ name ∈ names, isName name = true)
    (before after : List Char) : (slashed names).toList ≠ before ++ '/' :: '/' :: after := by
  intro heq
  have hparts := Path.partsOf_slashed hne h
  rw [partsOf, heq, List.splitOn_append_cons_self, Text.splitOn_cons_self] at hparts
  have hempty := h (String.ofList []) (by rw [← hparts]; simp)
  simp [isName, Path.isReal] at hempty

private theorem dropText_slashed (hne : names ≠ []) (h : ∀ name ∈ names, isName name = true) :
    dropText ['.', '/'] (slashed names).toList = (slashed names).toList := by
  refine if_neg fun hinit => ?_
  obtain ⟨rest,hrest⟩ := List.isPrefixOf_iff_prefix.mp hinit
  have hslash : (slashed names).toList = ['.'] ++ '/' :: rest := hrest.symm
  have hparts := Path.partsOf_slashed hne h
  rw [partsOf, hslash, List.splitOn_append_cons_self] at hparts
  have hdot := h "." (by rw [← hparts]; simp [List.splitOn_cons_eq_if_modifyHead])
  simp [isName, Path.isReal] at hdot

/-- What the rules see of a path of names is not absolute. -/
theorem isAbsolute_relative (hne : names ≠ []) (h : ∀ name ∈ names, isName name = true) :
    Path.isAbsolute (m.relative (slashed names)) = false := by
  rw [relative, dropText_slashed hne h]
  split
  · next hstrip =>
    simp only [Bool.and_eq_true] at hstrip
    obtain ⟨rest,hrest⟩ := List.isPrefixOf_iff_prefix.mp hstrip.2
    rw [← hrest, List.drop_left, Path.isAbsolute, String.toList_ofList]
    refine decide_eq_false fun hhead => ?_
    obtain ⟨after,hafter⟩ := List.head?_eq_some_iff.mp hhead
    rw [dropText] at hafter
    split at hafter
    · next hslash =>
      obtain ⟨more,rfl⟩ := List.isPrefixOf_iff_prefix.mp hslash
      rw [List.drop_left] at hafter
      exact not_slashes hne h m.root.toList after (by rw [← hrest, hafter]; rfl)
    · next hslash => simp [hafter] at hslash
  · rw [String.ofList_toList, Path.isAbsolute_slashed h]

private theorem verdict?_eq_some_iff (place : String × Bool) (excluded : Bool) :
    m.verdict? place.1 place.2 = some excluded ↔ ∃ before r after, m.rules = before ++ r :: after ∧
      r.matchesAt place = true ∧ (∀ later ∈ after, later.matchesAt place = false) ∧
      excluded = !r.negated := by
  rw [verdict?, Option.map_eq_some_iff]
  constructor
  · rintro ⟨r,hfind,rfl⟩
    obtain ⟨hmatch,after,before,hrules,hlater⟩ := List.find?_eq_some_iff_append.mp hfind
    refine ⟨before.reverse,r,after.reverse,?_,hmatch,fun later hmem => ?_,rfl⟩
    · rw [← List.reverse_reverse m.rules, hrules]
      simp
    · simpa [Rule.matchesAt] using hlater later (List.mem_reverse.mp hmem)
  · rintro ⟨before,r,after,hrules,hmatch,hlater,rfl⟩
    refine ⟨r,List.find?_eq_some_iff_append.mpr ⟨hmatch,after.reverse,before.reverse,?_,?_⟩,rfl⟩
    · simp [hrules]
    · intro later hmem
      simpa [Rule.matchesAt] using hlater later (List.mem_reverse.mp hmem)

private theorem verdict?_eq_none_iff (place : String × Bool) :
    m.verdict? place.1 place.2 = none ↔ ∀ r ∈ m.rules, r.matchesAt place = false := by
  simp [verdict?, Rule.matchesAt]

/-- Whether a rule decides on a file: it matches at some place, no later rule matches there, and no
rule at all matches at a nearer place. -/
def Decides (m : Matcher) (path : String) (r : Rule) : Prop :=
  ∃ nearer place farther before after, m.places path = nearer ++ place :: farther ∧
    m.rules = before ++ r :: after ∧ r.matchesAt place = true ∧
    (∀ later ∈ after, later.matchesAt place = false) ∧
    ∀ near ∈ nearer, ∀ other ∈ m.rules, other.matchesAt near = false

/-- Whether a rule is the last that matches a file or a directory above it. -/
def LastMatch (m : Matcher) (path : String) (r : Rule) : Prop :=
  ∃ before after, m.rules = before ++ r :: after ∧ (∃ place ∈ m.places path, r.matchesAt place) ∧
    ∀ later ∈ after, ∀ place ∈ m.places path, later.matchesAt place = false

/-- A file is excluded by what the rules say of the nearest place of which they say something. -/
theorem excludes?_eq (hne : names ≠ []) (h : ∀ name ∈ names, isName name = true) :
    m.excludes? (slashed names) = some (((m.places (slashed names)).findSome? fun place =>
      m.verdict? place.1 place.2).getD false) := by
  have habs := Path.isAbsolute_slashed h
  have hbelow := isAbsolute_relative (m := m) hne h
  by_cases hrules : m.rules = []
  · have hnone : (m.places (slashed names)).findSome? (fun place => m.verdict? place.1 place.2) =
        none :=
      List.findSome?_eq_none_iff.mpr fun place _ =>
        (verdict?_eq_none_iff place).mpr (by simp [hrules])
    simp [excludes?, hrules, hnone]
  · have hplaces : (m.places (slashed names)).findSome? (fun place => m.verdict? place.1 place.2) =
        (m.verdict? (m.relative (slashed names)) false).or
          ((ancestors (m.relative (slashed names))).findSome? (m.verdict? · true)) := by
      rw [places, List.findSome?_cons, List.findSome?_map]
      cases m.verdict? (m.relative (slashed names)) false <;> rfl
    simp [excludes?, hrules, habs, hbelow, hplaces]

theorem excludes?_of_decides (hne : names ≠ []) (h : ∀ name ∈ names, isName name = true)
    {r : Rule} (hr : m.Decides (slashed names) r) :
    m.excludes? (slashed names) = some (!r.negated) := by
  obtain ⟨nearer,place,farther,before,after,hplaces,hrules,hmatch,hlater,hnear⟩ := hr
  have hfirst : (m.places (slashed names)).findSome? (fun place => m.verdict? place.1 place.2) =
      some (!r.negated) := by
    refine List.findSome?_eq_some_iff.mpr ⟨nearer,place,farther,hplaces,?_,fun near hmem => ?_⟩
    · exact (verdict?_eq_some_iff place _).mpr ⟨before,r,after,hrules,hmatch,hlater,rfl⟩
    · exact (verdict?_eq_none_iff near).mpr (hnear near hmem)
  rw [excludes?_eq hne h, hfirst, Option.getD_some]

private theorem excludes?_of_no_match (hne : names ≠ []) (h : ∀ name ∈ names, isName name = true)
    (hnone : ∀ r ∈ m.rules, ∀ place ∈ m.places (slashed names), r.matchesAt place = false) :
    m.excludes? (slashed names) = some false := by
  have hfirst : (m.places (slashed names)).findSome? (fun place => m.verdict? place.1 place.2) =
      none :=
    List.findSome?_eq_none_iff.mpr fun place hplace =>
      (verdict?_eq_none_iff place).mpr fun r hr => hnone r hr place hplace
  rw [excludes?_eq hne h, hfirst, Option.getD_none]

private theorem exists_decides {path : String}
    (h : ∃ r ∈ m.rules, ∃ place ∈ m.places path, r.matchesAt place = true) :
    ∃ r, m.Decides path r := by
  obtain ⟨r,hr,place,hplace,hmatch⟩ := h
  cases hfirst : (m.places path).findSome? (fun place => m.verdict? place.1 place.2) with
  | none =>
    have hnone :=
      (verdict?_eq_none_iff place).mp (List.findSome?_eq_none_iff.mp hfirst place hplace)
    rw [hnone r hr] at hmatch
    cases hmatch
  | some excluded =>
    obtain ⟨nearer,place,farther,hplaces,hverdict,hnear⟩ := List.findSome?_eq_some_iff.mp hfirst
    obtain ⟨before,r,after,hrules,hmatch,hlater,-⟩ := (verdict?_eq_some_iff place _).mp hverdict
    exact ⟨r,nearer,place,farther,before,after,hplaces,hrules,hmatch,hlater,
      fun near hmem => (verdict?_eq_none_iff near).mp (hnear near hmem)⟩

/-- Where no rule takes files back in, a file is excluded if any rule matches at any place. -/
theorem excludes?_of_not_negated (hne : names ≠ []) (h : ∀ name ∈ names, isName name = true)
    (hrules : ∀ r ∈ m.rules, r.negated = false) : m.excludes? (slashed names) =
      some (m.rules.any fun r => (m.places (slashed names)).any r.matchesAt) := by
  cases hmatch : m.rules.any fun r => (m.places (slashed names)).any r.matchesAt with
  | false => exact excludes?_of_no_match hne h (by simpa using hmatch)
  | true =>
    obtain ⟨r,hr⟩ := exists_decides (by simpa using hmatch)
    have hmem : r ∈ m.rules := by
      obtain ⟨-,-,-,before,after,-,heq,-⟩ := hr
      simp [heq]
    rw [excludes?_of_decides hne h hr, hrules r hmem, Bool.not_false]

/-- A rule that matches nowhere makes no difference. -/
theorem excludes?_concat (hne : names ≠ []) (h : ∀ name ∈ names, isName name = true) {r : Rule}
    (hr : ∀ place ∈ m.places (slashed names), r.matchesAt place = false) :
    excludes? ⟨m.root, m.rules ++ [r]⟩ (slashed names) = m.excludes? (slashed names) := by
  have hsame : ∀ place ∈ m.places (slashed names),
      verdict? ⟨m.root, m.rules ++ [r]⟩ place.1 place.2 = m.verdict? place.1 place.2 := by
    intro place hplace
    have hskip : r.matchesPath place.1 place.2 = false := hr place hplace
    simp [verdict?, hskip]
  have hplaces : places ⟨m.root, m.rules ++ [r]⟩ (slashed names) = m.places (slashed names) := rfl
  rw [excludes?_eq hne h, excludes?_eq hne h, hplaces, ← List.head?_filterMap,
    List.filterMap_congr hsame, List.head?_filterMap]

private theorem exists_lastMatch {path : String}
    (h : ∃ r ∈ m.rules, ∃ place ∈ m.places path, r.matchesAt place = true) :
    ∃ r, m.LastMatch path r := by
  obtain ⟨r,hr,hplace⟩ := h
  have hsome : (m.rules.reverse.find? fun r => (m.places path).any r.matchesAt).isSome := by
    rw [List.find?_isSome]
    exact ⟨r,List.mem_reverse.mpr hr,List.any_eq_true.mpr hplace⟩
  obtain ⟨last,hlast⟩ := Option.isSome_iff_exists.mp hsome
  obtain ⟨hmatch,after,before,hrules,hlater⟩ := List.find?_eq_some_iff_append.mp hlast
  refine ⟨last,before.reverse,after.reverse,?_,List.any_eq_true.mp hmatch,?_⟩
  · rw [← List.reverse_reverse m.rules, hrules]
    simp
  · intro later hmem place hplace
    have hnone := hlater later (List.mem_reverse.mp hmem)
    simp only [Bool.not_eq_true', List.any_eq_false, Bool.not_eq_true] at hnone
    exact hnone place hplace

theorem ofLines_concat {root line : String} {lines : List String} {r : Rule}
    (hm : ofLines root lines = .ok m) (hline : Rule.ofLine line = .ok (some r)) :
    ofLines root (lines ++ [line]) = .ok ⟨m.root, m.rules ++ [r]⟩ := by
  rw [ofLines] at hm ⊢
  cases hrules : lines.mapM Rule.ofLine with
  | error e => rw [hrules] at hm; cases hm
  | ok rules =>
    rw [hrules] at hm
    cases hm
    simp [List.mapM_append, hrules, hline, bind, Except.bind, pure, Except.pure]

/-- An absolute root is kept as it is. -/
theorem root_of_absolute {root : String} {lines : List String} (hm : ofLines root lines = .ok m)
    (habs : Path.isAbsolute root = true) : m.root = root := by
  obtain ⟨rest,hroot⟩ := List.head?_eq_some_iff.mp (of_decide_eq_true habs)
  rw [ofLines] at hm
  cases hrules : lines.mapM Rule.ofLine with
  | error e => rw [hrules] at hm; cases hm
  | ok rules =>
    rw [hrules] at hm
    cases hm
    simp [dropText, hroot, ← String.toList_inj]

/-- Below an absolute root the rules see paths as they are. -/
theorem relative_of_absolute {root : String} {lines : List String}
    (hm : ofLines root lines = .ok m) (habs : Path.isAbsolute root = true) (hne : names ≠ [])
    (h : ∀ name ∈ names, isName name = true) : m.relative (slashed names) = slashed names := by
  obtain ⟨rest,hroot⟩ := List.head?_eq_some_iff.mp (of_decide_eq_true habs)
  have hmroot := root_of_absolute hm habs
  have hplain := Path.isAbsolute_slashed h
  have hstrip : m.root.toList.isPrefixOf (slashed names).toList = false := by
    rw [hmroot, hroot]
    refine Bool.eq_false_iff.mpr fun hinit => ?_
    obtain ⟨more,hmore⟩ := List.isPrefixOf_iff_prefix.mp hinit
    simp [Path.isAbsolute, ← hmore] at hplain
  simp [relative, dropText_slashed hne h, hstrip]

/-- Rules are tried at a path of names and its beginnings. -/
theorem places_of_relative (h : ∀ name ∈ names, isName name = true)
    (hsame : m.relative (slashed names) = slashed names) : m.places (slashed names) =
      (slashed names, false) :: (above names).map fun dir => (slashed dir, true) := by
  rw [places, hsame, ancestors_slashed h, List.map_map]
  rfl

/-- An added rule decides wherever none of the others matches at a nearer place. -/
theorem decides_concat {r : Rule} {path : String} {nearer farther : List (String × Bool)}
    {place : String × Bool} (hplaces : m.places path = nearer ++ place :: farther)
    (hmatch : r.matchesAt place = true)
    (hnear : ∀ near ∈ nearer, ∀ other ∈ m.rules, other.matchesAt near = false) :
    Decides ⟨m.root, m.rules ++ [r]⟩ path r := by
  -- the added rule may match at a nearer place as well, and then it decides there
  obtain ⟨first,hfirst⟩ := Option.isSome_iff_exists.mp
    (List.find?_isSome.mpr ⟨place,by simp,hmatch⟩ :
      ((nearer ++ [place]).find? r.matchesAt).isSome = true)
  obtain ⟨hhere,before,after,hsplit,hskip⟩ := List.find?_eq_some_iff_append.mp hfirst
  have hsub : ∀ near ∈ before, near ∈ nearer := by
    intro near hmem
    have hdrop := congrArg List.dropLast hsplit
    rw [List.dropLast_concat, List.dropLast_append_of_ne_nil (by simp)] at hdrop
    rw [hdrop]
    exact List.mem_append_left _ hmem
  refine ⟨before,first,after ++ farther,m.rules,[],?_,rfl,hhere,by simp,?_⟩
  · have hsame : places ⟨m.root, m.rules ++ [r]⟩ path = m.places path := rfl
    rw [hsame, hplaces, List.append_cons, hsplit]
    simp
  · intro near hmem other hother
    rcases List.mem_append.mp hother with hother | hother
    · exact hnear near (hsub near hmem) other hother
    · rw [List.mem_singleton.mp hother]
      simpa using hskip near hmem

/-- Of the rules that match a file or a directory above it, the last at the nearest place decides.
The last of all gives the answer exactly when it agrees with that one, and a rule added behind the
others decides wherever none of them matches at a nearer place. -/
theorem nearest_match_decides {root : String} {lines : List String}
    (hm : ofLines root lines = .ok m) (hne : names ≠ []) (h : ∀ name ∈ names, isName name = true) :
    let path := slashed names
    (Path.isAbsolute root = true ∨ m.relative path = path →
      m.places path = (path, false) :: (above names).map fun dir => (slashed dir, true)) ∧
    (∀ r, m.Decides path r → m.excludes? path = some (!r.negated)) ∧
    ((∀ r ∈ m.rules, ∀ place ∈ m.places path, r.matchesAt place = false) →
      m.excludes? path = some false) ∧
    ((∃ r ∈ m.rules, ∃ place ∈ m.places path, r.matchesAt place = true) →
      ∃ r last, m.Decides path r ∧ m.LastMatch path last ∧
        (m.excludes? path = some (!last.negated) ↔ r.negated = last.negated)) ∧
    (∀ line r, Rule.ofLine line = .ok (some r) → ∀ nearer place farther,
      m.places path = nearer ++ place :: farther → r.matchesAt place = true →
      (∀ near ∈ nearer, ∀ other ∈ m.rules, other.matchesAt near = false) →
      ∃ extended, ofLines root (lines ++ [line]) = .ok extended ∧
        extended.excludes? path = some (!r.negated)) := by
  intro path
  refine ⟨fun hroot => ?_,fun r => excludes?_of_decides hne h,excludes?_of_no_match hne h,
    fun hmatch => ?_,fun line r hline nearer place farther hplaces hmatch hnear => ?_⟩
  · exact places_of_relative h (hroot.elim (fun habs => relative_of_absolute hm habs hne h) id)
  · obtain ⟨r,hr⟩ := exists_decides hmatch
    obtain ⟨last,hlast⟩ := exists_lastMatch hmatch
    refine ⟨r,last,hr,hlast,?_⟩
    rw [excludes?_of_decides hne h hr]
    simp
  · exact ⟨_,ofLines_concat hm hline,
      excludes?_of_decides hne h (decides_concat hplaces hmatch hnear)⟩

private def keepFile : Rule :=
  ⟨"!build/keep.py", true, false, "build/keep.py".toList.map .literal⟩

private def dropDirectory : Rule :=
  ⟨"build/", false, true, .deepStart :: "build".toList.map .literal⟩

/-- The last line excludes a directory, and yet the file in it that an earlier line takes back in
stays. -/
theorem nearest_match_decides_earlier_negation :
    ∃ m plain, ofLines "/project" ["!build/keep.py", "build/"] = .ok m ∧
      m.places "build/keep.py" = [("build/keep.py", false), ("build", true), ("", true)] ∧
      m.LastMatch "build/keep.py" plain ∧ plain.negated = false ∧
      m.excludes? "build/keep.py" = some false := by
  have hm : ofLines "/project" ["!build/keep.py", "build/"] =
      .ok ⟨"/project", [keepFile, dropDirectory]⟩ := by cbv
  obtain ⟨hplaces,hdecides,-⟩ := nearest_match_decides hm
    (show ["build", "keep.py"] ≠ [] by simp) (by decide)
  replace hplaces := hplaces (.inl (by decide))
  have habove : (above ["build", "keep.py"]).map (fun dir => (slashed dir, true)) =
      [("build", true), ("", true)] := by decide
  have hpath : slashed ["build", "keep.py"] = "build/keep.py" := by decide
  rw [habove, hpath] at hplaces
  rw [hpath] at hdecides
  have hnotFile : dropDirectory.matchesAt ("build/keep.py", false) = false := by decide +kernel
  refine ⟨_,dropDirectory,hm,hplaces,⟨[keepFile],[],rfl,?_,by simp⟩,rfl,hdecides keepFile ?_⟩
  · exact ⟨("build", true),by simp [hplaces],by decide +kernel⟩
  · exact ⟨[],_,_,[],[dropDirectory],hplaces,rfl,by decide +kernel,by simp [hnotFile],by simp⟩

end Matcher

end DocSnapshot.Ignore
