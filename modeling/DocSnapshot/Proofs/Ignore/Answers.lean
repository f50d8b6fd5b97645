import DocSnapshot.Proofs.Ignore.Precedence

/-! Which paths a matcher has an answer for. Taking a period and slash or the root off the front of
a path may uncover a second slash, and what is left is absolute then. -/
namespace DocSnapshot.Ignore.Matcher

def inner (path : String) : List Char := dropText ['.', '/'] path.toList

/-- Whether a path begins with the root, be it in the middle of a name. A root that is the directory
at hand is never taken off. -/
def Covers (m : Matcher) (path : String) : Prop :=
  Path.components m.root ≠ [.here] ∧ m.root.toList <+: inner path

instance (m : Matcher) (path : String) : Decidable (m.Covers path) :=
  inferInstanceAs (Decidable (_ ∧ _))

variable {m : Matcher} {path : String}

private theorem isAbsolute_ofList (s : List Char) :
    Path.isAbsolute (String.ofList s) = true ↔ ['/'] <+: s := by
  cases s <;> simp [Path.isAbsolute, eq_comm]

private theorem slash_prefix_dropText (s : List Char) :
    ['/'] <+: dropText ['/'] s ↔ ['/', '/'] <+: s := by
  cases s with
  | nil => simp [dropText]
  | cons c rest =>
    by_cases hc : c = '/'
    · simp [dropText, hc]
    · simp [dropText, Ne.symm hc]

private theorem isAbsolute_relative_iff : Path.isAbsolute (m.relative path) = true ↔
    if m.Covers path then m.root.toList ++ ['/', '/'] <+: inner path else ['/'] <+: inner path := by
  have hrelative : m.relative path =
      if Path.components m.root ≠ [.here] && (inner path).contains '/' &&
        m.root.toList.isPrefixOf (inner path)
      then String.ofList (dropText ['/'] ((inner path).drop m.root.toList.length))
      else String.ofList (inner path) := rfl
  rw [hrelative]
  by_cases hcovers : m.Covers path
  · rw [if_pos hcovers]
    obtain ⟨hroot,rest,hrest⟩ := hcovers
    rw [← hrest, List.prefix_append_right_inj]
    by_cases hslash : '/' ∈ m.root.toList ++ rest
    · rw [if_pos (by simpa [hroot] using hslash), List.drop_left, isAbsolute_ofList,
        slash_prefix_dropText]
    · rw [if_neg (by simpa [hroot] using hslash), isAbsolute_ofList]
      refine iff_of_false (fun h => hslash ?_) fun h => hslash ?_
      · exact h.subset (List.mem_singleton.mpr rfl)
      · exact List.mem_append_right _ (h.subset List.mem_cons_self)
  · rw [if_neg hcovers, if_neg, isAbsolute_ofList]
    intro hstrip
    simp only [Bool.and_eq_true, decide_eq_true_eq] at hstrip
    exact hcovers ⟨hstrip.1.1,List.isPrefixOf_iff_prefix.mp hstrip.2⟩

private theorem excludes?_eq_none_iff : m.excludes? path = none ↔
    m.rules ≠ [] ∧ Path.isAbsolute path = false ∧ Path.isAbsolute (m.relative path) = true := by
  by_cases hrules : m.rules = []
  · simp [excludes?, hrules]
  · cases habs : Path.isAbsolute path <;> cases hbelow : Path.isAbsolute (m.relative path) <;>
      simp [excludes?, hrules, habs, hbelow]

private theorem doubled_of_inner (habs : Path.isAbsolute path = false)
    (h : ['/'] <+: inner path) : ['.', '/', '/'] <+: path.toList := by
  rw [inner, dropText] at h
  split at h
  · next hdot =>
    obtain ⟨rest,hrest⟩ := List.isPrefixOf_iff_prefix.mp hdot
    rw [← hrest, List.drop_left] at h
    rw [← hrest]
    exact (List.prefix_append_right_inj ['.', '/']).mpr h
  · obtain ⟨rest,hrest⟩ := h
    simp [Path.isAbsolute, ← hrest] at habs

private theorem inner_suffix (path : String) : inner path <:+ path.toList := by
  rw [inner, dropText]
  split
  · exact List.drop_suffix _ _
  · exact List.suffix_refl _

/-- A matcher has no answer for a relative path exactly if taking off what is in front of it leaves
a slash: it begins with a period and two slashes, or with the root and two slashes. -/
theorem unanswered_iff_doubled_slash {root : String} {lines : List String}
    (hm : ofLines root lines = .ok m) (path : String) :
    (m.excludes? path = none ↔ m.rules ≠ [] ∧ Path.isAbsolute path = false ∧
      if m.Covers path then m.root.toList ++ ['/', '/'] <+: inner path
      else ['.', '/', '/'] <+: path.toList) ∧
    (Path.isAbsolute root = true → m.excludes? path = none → ['.', '/', '/'] <+: path.toList) ∧
    (¬['/', '/'] <:+: path.toList → ∃ excluded, m.excludes? path = some excluded) := by
  have hbelow (habs : Path.isAbsolute path = false) : ['/'] <+: inner path ↔
      ['.', '/', '/'] <+: path.toList := by
    refine ⟨doubled_of_inner habs,fun h => ?_⟩
    obtain ⟨rest,hrest⟩ := h
    simp [inner, dropText, ← hrest]
  have hshape : m.excludes? path = none ↔ m.rules ≠ [] ∧ Path.isAbsolute path = false ∧
      if m.Covers path then m.root.toList ++ ['/', '/'] <+: inner path
      else ['.', '/', '/'] <+: path.toList := by
    rw [excludes?_eq_none_iff, isAbsolute_relative_iff]
    refine and_congr_right fun _ => and_congr_right fun habs => ?_
    rw [hbelow habs]
  refine ⟨hshape,fun hroot hnone => ?_,fun hsingle => ?_⟩
  · obtain ⟨-,habs,hcase⟩ := hshape.mp hnone
    split at hcase
    · -- an absolute root begins with a slash, and so does what it is taken off
      obtain ⟨rest,hrest⟩ := List.head?_eq_some_iff.mp (of_decide_eq_true hroot)
      rw [root_of_absolute hm hroot, hrest] at hcase
      exact (hbelow habs).mp (List.IsPrefix.trans (by simp) hcase)
    · exact hcase
  · refine Option.ne_none_iff_exists'.mp fun hnone => hsingle ?_
    obtain ⟨-,-,hcase⟩ := hshape.mp hnone
    split at hcase
    · exact ((List.infix_append_right ..).trans hcase.isInfix).trans (inner_suffix path).isInfix
    · exact List.IsInfix.trans ⟨['.'],[],rfl⟩ hcase.isInfix

private def dropScript : Rule :=
  ⟨"b.py", false, false, .deepStart :: "b.py".toList.map .literal⟩

/-- Behind a period, two slashes leave a path without an answer; behind a root that is not absolute
they do so too. One slash does not. -/
theorem unanswered_iff_doubled_slash_roots :
    (∃ m, ofLines "/project" ["b.py"] = .ok m ∧ m.excludes? ".//a.py" = none ∧
      ∃ excluded, m.excludes? "./a.py" = some excluded) ∧
    ∃ m, ofLines "src" ["b.py"] = .ok m ∧ m.excludes? "src//a.py" = none := by
  have hproject : ofLines "/project" ["b.py"] = .ok ⟨"/project", [dropScript]⟩ := by cbv
  have hsrc : ofLines "src" ["b.py"] = .ok ⟨"src", [dropScript]⟩ := by cbv
  refine ⟨⟨_,hproject,(unanswered_iff_doubled_slash hproject _).1.mpr ⟨by simp,rfl,?_⟩,
    (unanswered_iff_doubled_slash hproject _).2.2 (by decide)⟩,
    _,hsrc,(unanswered_iff_doubled_slash hsrc _).1.mpr ⟨by simp,rfl,?_⟩⟩
  · decide +kernel
  · decide +kernel

end DocSnapshot.Ignore.Matcher
