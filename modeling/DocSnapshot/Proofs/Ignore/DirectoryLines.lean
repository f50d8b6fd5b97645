import DocSnapshot.Proofs.Ignore.Literals
import DocSnapshot.Proofs.Ignore.Precedence
import Mathlib.Data.List.TakeWhile

/-! Lines for directories. A name with a slash behind it excludes what lies in the directories of
that name, at any depth, and an exclamation mark takes one path back in. Blank lines and comments
count for nothing. -/
namespace DocSnapshot.Ignore
open DocSnapshot.Path (isName)
open DocSnapshot.Scan (slashed)

def isPlainChar (c : Char) : Bool :=
  !(Text.isBlank c || ['/', '\\', '*', '?', '[', ']', '\x7b', '\x7d', ',', '!', '#'].contains c)

/-- Whether a name stands for itself in a line. A period at its end is left out because globs that
are looked up by name treat it in a way of their own. -/
def isPlain (name : String) : Bool :=
  name ≠ "" && name.toList.getLast? ≠ some '.' && name.toList.all isPlainChar

/-- Whether a line is blank or a comment. -/
def isSilent (line : String) : Bool :=
  line.toList.head? = some '#' || line.toList.all Text.isBlank

namespace Rule

def directory (name : String) : Rule :=
  ⟨name ++ "/", false, true, .deepStart :: name.toList.map .literal⟩

def kept (path : String) : Rule := ⟨"!" ++ path, true, false, path.toList.map .literal⟩

end Rule

variable {name : String} {names : List String} {cs : List Char} {c : Char}

private theorem not_special_of_plain (h : isPlainChar c = true) : isSpecial c = false := by
  simp_all [isPlainChar, isSpecial]

private theorem not_blank_of_plain (h : isPlainChar c = true) : Text.isBlank c = false := by
  simp only [isPlainChar, Bool.not_eq_true', Bool.or_eq_false_iff] at h
  exact h.1

private theorem chars_of_plain (h : isPlain name = true) : name.toList ≠ [] ∧
    name.toList.getLast? ≠ some '.' ∧ ∀ c ∈ name.toList, isPlainChar c = true := by
  simp only [isPlain, Bool.and_eq_true, decide_eq_true_eq, List.all_eq_true] at h
  exact ⟨fun hnil => h.1.1 (String.toList_inj.mp hnil),h.1.2,h.2⟩

private theorem not_mem_of_plain (h : isPlain name = true) {special : Char}
    (hspecial : isPlainChar special = false) : special ∉ name.toList := by
  intro hmem
  rw [(chars_of_plain h).2.2 _ hmem] at hspecial
  cases hspecial

/-- A plain name names a file or directory. -/
theorem isName_of_isPlain (h : isPlain name = true) : isName name = true := by
  obtain ⟨hne,hlast,-⟩ := chars_of_plain h
  have hempty : name ≠ "" := by
    rintro rfl
    exact hne rfl
  have hhere : name ≠ "." := by
    rintro rfl
    exact hlast rfl
  have hup : name ≠ ".." := by
    rintro rfl
    exact hlast rfl
  have hslash : '/' ∉ name.toList := not_mem_of_plain h rfl
  simp [isName, Path.isReal, hempty, hhere, hup, hslash]

private theorem chars_of_slashed (hlen : 2 ≤ names.length)
    (h : ∀ name ∈ names, isPlain name = true) : (slashed names).toList.head? ≠ some '/' ∧
      '/' ∈ (slashed names).toList ∧
      (∀ c ∈ (slashed names).toList, c = '/' ∨ isPlainChar c = true) ∧
      ∃ init last, (slashed names).toList = init ++ [last] ∧ isPlainChar last = true := by
  obtain ⟨dirs,name,rfl⟩ := (List.eq_nil_or_concat names).resolve_left (by rintro rfl; simp at hlen)
  rw [List.concat_eq_append] at h hlen ⊢
  have hdirs : dirs ≠ [] := by
    rintro rfl
    simp at hlen
  have habs := Path.isAbsolute_slashed fun part hpart => isName_of_isPlain (h part hpart)
  obtain ⟨hne,-,hchars⟩ := chars_of_plain (h name (by simp))
  obtain ⟨init,last,hlast⟩ := (List.eq_nil_or_concat name.toList).resolve_left hne
  rw [List.concat_eq_append] at hlast
  refine ⟨of_decide_eq_false habs,by simp [Path.slashed_concat hdirs],fun c hc => ?_,
    (slashed dirs).toList ++ '/' :: init,last,by simp [Path.slashed_concat hdirs, hlast],
    hchars last (by simp [hlast])⟩
  refine (Path.mem_slashed hc).imp_right ?_
  rintro ⟨part,hpart,hin⟩
  exact (chars_of_plain (h part hpart)).2.2 c hin

namespace Rule

private theorem content_concat (hhead : (cs ++ [c]).head? ≠ some '#')
    (hc : Text.isBlank c = false) : content (cs ++ [c]) = cs ++ [c] := by
  rw [content, if_neg hhead]
  split
  · rfl
  · simp [Text.trimEnd, hc]

private theorem marks_of_head (hescape : cs.head? ≠ some '\\') (hmark : cs.head? ≠ some '!')
    (hslash : cs.head? ≠ some '/') : marks cs = (false, false, cs) := by
  cases cs with
  | nil => rfl
  | cons c rest =>
    simp only [List.head?_cons, ne_eq, Option.some_inj] at hescape hmark hslash
    rw [marks] <;> simp [hescape, hmark, hslash]

private theorem expand_of_not_star (hne : cs ≠ []) (h : '*' ∉ cs) :
    expand false cs = if '/' ∈ cs then cs else '*' :: '*' :: '/' :: cs := by
  have hdeep : ['*', '*', '/'].isPrefixOf cs = false := by
    refine Bool.eq_false_iff.mpr fun hdeep => h ?_
    exact (List.isPrefixOf_iff_prefix.mp hdeep).subset List.mem_cons_self
  have hpair : cs ≠ ['*', '*'] := by
    intro heq
    exact h (heq ▸ List.mem_cons_self)
  have hend (front : List Char) : ['/', '*', '*'].isSuffixOf (front ++ cs) = false := by
    refine Bool.eq_false_iff.mpr fun hstars => h ?_
    obtain ⟨before,heq⟩ := List.isSuffixOf_iff_suffix.mp hstars
    have hlast := congrArg List.getLast? heq
    rw [List.getLast?_append_of_ne_nil _ hne, List.getLast?_append_of_ne_nil _ (by simp)] at hlast
    exact List.mem_of_getLast? hlast.symm
  have hwhole := hend []
  have hbehind := hend ['*', '*', '/']
  rw [List.nil_append] at hwhole
  by_cases hslash : '/' ∈ cs
  · simp [expand, hslash, hwhole]
  · simp only [List.cons_append, List.nil_append] at hbehind
    simp [expand, hslash, hdeep, hpair, hbehind]

private theorem ofLine_eq {line : String} {text pattern inner : List Char} {glob : Glob}
    {negated bound dirsOnly : Bool} (hcontent : content line.toList = text) (hne : text ≠ [])
    (hmarks : marks text = (negated, bound, pattern)) (hdir : dirMark pattern = (dirsOnly, inner))
    (hglob : Glob.compile (expand bound inner) = .ok glob) :
    ofLine line = .ok (some ⟨String.ofList text, negated, dirsOnly, glob⟩) := by
  obtain ⟨c,rest,rfl⟩ := List.exists_cons_of_ne_nil hne
  simp only [ofLine, hcontent, hmarks, hdir, hglob]

/-- A line with a name and a slash. -/
theorem ofLine_directory (h : isPlain name = true) :
    ofLine (name ++ "/") = .ok (some (directory name)) := by
  obtain ⟨hne,-,hchars⟩ := chars_of_plain h
  have htext : (name ++ "/").toList = name.toList ++ ['/'] := String.toList_append
  have hhead {special : Char} (hspecial : isPlainChar special = false) :
      (name.toList ++ ['/']).head? ≠ some special := by
    rw [List.head?_append_of_ne_nil _ hne]
    exact fun hfirst => not_mem_of_plain h hspecial (List.mem_of_head? hfirst)
  have hcontent := content_concat (hhead rfl) (rfl : Text.isBlank '/' = false)
  have hmarks : marks (name.toList ++ ['/']) = (false, false, name.toList ++ ['/']) :=
    marks_of_head (hhead rfl) (hhead rfl) (hhead rfl)
  have hdir : dirMark (name.toList ++ ['/']) = (true, name.toList) := by
    have hlast : name.toList.getLast? ≠ some '\\' := fun hlast =>
      not_mem_of_plain h rfl (List.mem_of_getLast? hlast)
    simp [dirMark, hlast]
  have hexpand : expand false name.toList = '*' :: '*' :: '/' :: name.toList := by
    rw [expand_of_not_star hne (not_mem_of_plain h rfl), if_neg (not_mem_of_plain h rfl)]
  have hglob := Glob.compile_deepStart_literal fun c hc => not_special_of_plain (hchars c hc)
  rw [ofLine_eq (htext ▸ hcontent) (by simp) hmarks hdir (by rwa [hexpand]), ← htext,
    String.ofList_toList]
  rfl

/-- A line that takes a path of several names back in. -/
theorem ofLine_kept (hlen : 2 ≤ names.length) (h : ∀ name ∈ names, isPlain name = true) :
    ofLine ("!" ++ slashed names) = .ok (some (kept (slashed names))) := by
  obtain ⟨hhead,hslash,hchars,init,last,hconcat,hlast⟩ := chars_of_slashed hlen h
  generalize slashed names = path at *
  have htext : ("!" ++ path).toList = '!' :: path.toList := String.toList_append
  have hcontent : content ('!' :: path.toList) = '!' :: path.toList := by
    rw [hconcat, ← List.cons_append]
    exact content_concat (by simp) (not_blank_of_plain hlast)
  have hmarks : marks ('!' :: path.toList) = (true, false, path.toList) := by
    rw [marks]
    intro rest hrest
    simp [hrest] at hhead
  have hdir : dirMark path.toList = (false, path.toList) := by
    have hne : last ≠ '/' := by
      rintro rfl
      cases hlast
    rw [dirMark, if_neg]
    simpa [hconcat] using hne
  have hstar : '*' ∉ path.toList := fun hmem => by
    rcases hchars _ hmem with heq | hplain
    · cases heq
    · cases hplain
  have hexpand : expand false path.toList = path.toList := by
    rw [expand_of_not_star (List.ne_nil_of_mem hslash) hstar, if_pos hslash]
  have hglob : Glob.compile path.toList = .ok (path.toList.map .literal) := by
    refine Glob.compile_literal fun c hc => ?_
    rcases hchars c hc with rfl | hplain
    · rfl
    · exact not_special_of_plain hplain
  rw [ofLine_eq (htext ▸ hcontent) (by simp) hmarks hdir (by rwa [hexpand]), ← htext,
    String.ofList_toList]
  rfl

theorem ofLine_of_isSilent {line : String} (h : isSilent line = true) : ofLine line = .ok none := by
  have hcontent : content line.toList = [] := by
    rw [isSilent, Bool.or_eq_true, decide_eq_true_eq] at h
    rw [content]
    split
    · rfl
    · next hcomment =>
      have hblank := h.resolve_left hcomment
      have hescape : ['\\', ' '].isSuffixOf line.toList = false := by
        refine Bool.eq_false_iff.mpr fun hend => ?_
        have hmem := (List.isSuffixOf_iff_suffix.mp hend).subset List.mem_cons_self
        exact absurd (List.all_eq_true.mp hblank _ hmem) (by decide)
      have hall : line.toList.reverse.dropWhile Text.isBlank = [] := by
        rw [List.dropWhile_eq_nil_iff]
        simpa using hblank
      rw [hescape, if_neg (by simp), Text.trimEnd, hall, List.reverse_nil]
  rw [ofLine, hcontent]

/-- The rule for the directories of a name matches those of that name and nothing else. -/
theorem matchesAt_directory (h : isPlain name = true) (hnames : ∀ part ∈ names, isName part = true)
    (isDir : Bool) : (directory name).matchesAt (slashed names, isDir) = true ↔
      isDir = true ∧ names.getLast? = some name := by
  obtain ⟨hne,hlast,-⟩ := chars_of_plain h
  rw [Path.getLast?_iff_slashed (isName_of_isPlain h) hnames,
    ← Glob.matchesPath_deepStart_literals hne hlast]
  simp [matchesAt, matchesPath, directory]

/-- The rule that takes a path back in matches that path and nothing else. -/
theorem matchesAt_kept {other : List String} (h : ∀ name ∈ names, isName name = true)
    (hother : ∀ name ∈ other, isName name = true) (isDir : Bool) :
    (kept (slashed names)).matchesAt (slashed other, isDir) = true ↔ other = names := by
  rw [← Path.slashed_inj hother h, ← String.toList_inj, ← Glob.matchesPath_literals]
  simp [matchesAt, matchesPath, kept]

end Rule

namespace Matcher

private theorem ofLines_cons (root line : String) (lines : List String) :
    ofLines root (line :: lines) = do
      let rule ← Rule.ofLine line
      let m ← ofLines root lines
      return ⟨m.root, rule.toList ++ m.rules⟩ := by
  rw [ofLines, ofLines, List.mapM_cons]
  cases Rule.ofLine line with
  | error e => rfl
  | ok rule => cases lines.mapM Rule.ofLine <;> cases rule <;> rfl

/-- Blank lines and comments make no difference. -/
theorem ofLines_filter (root : String) (lines : List String) :
    ofLines root (lines.filter (!isSilent ·)) = ofLines root lines := by
  induction lines with
  | nil => rfl
  | cons line lines ih =>
    cases hline : isSilent line with
    | true =>
      rw [List.filter_cons_of_neg (by simp [hline]), ih, ofLines_cons,
        Rule.ofLine_of_isSilent hline]
      cases ofLines root lines <;> rfl
    | false => rw [List.filter_cons_of_pos (by simp [hline]), ofLines_cons, ih, ← ofLines_cons]

/-- Every line for a directory makes a rule. -/
theorem ofLines_directories (root : String) {dirs : List String}
    (h : ∀ d ∈ dirs, isPlain d = true) : ∃ m, ofLines root (dirs.map (· ++ "/")) = .ok m ∧
      m.rules = dirs.map Rule.directory := by
  induction dirs with
  | nil => exact ⟨_,rfl,rfl⟩
  | cons d dirs ih =>
    rw [List.forall_mem_cons] at h
    obtain ⟨m,hm,hrules⟩ := ih h.2
    refine ⟨⟨m.root, Rule.directory d :: m.rules⟩,?_,by rw [hrules, List.map_cons]⟩
    rw [List.map_cons, ofLines_cons, Rule.ofLine_directory h.1, hm]
    rfl

private theorem prefix_of_mem_above {dir : List String} (h : dir ∈ above names) :
    dir <+: names := by
  obtain ⟨k,-,rfl⟩ := List.mem_map.mp h
  exact List.take_prefix ..

section
variable {m : Matcher} (hsame : m.relative (slashed names) = slashed names)
  (h : ∀ name ∈ names, isName name = true)
include hsame h

private theorem exists_place_iff (p : String × Bool → Prop) :
    (∃ place ∈ m.places (slashed names), p place) ↔
      p (slashed names, false) ∨ ∃ dir ∈ above names, p (slashed dir, true) := by
  rw [places_of_relative h hsame]
  simp

private theorem exists_place_directory {d : String} (hd : isPlain d = true) :
    (∃ place ∈ m.places (slashed names), (Rule.directory d).matchesAt place = true) ↔
      d ∈ names.dropLast := by
  rw [exists_place_iff hsame h, mem_dropLast_iff, Rule.matchesAt_directory hd h, or_iff_right
    (by simp)]
  refine exists_congr fun dir => and_congr_right fun hdir => ?_
  rw [Rule.matchesAt_directory hd fun name hname => h name ((prefix_of_mem_above hdir).subset hname)]
  exact and_iff_right rfl

private theorem prefix_of_place_kept {other : List String}
    (hother : ∀ name ∈ other, isName name = true)
    (hplace : ∃ place ∈ m.places (slashed names),
      (Rule.kept (slashed other)).matchesAt place = true) : other <+: names := by
  rcases (exists_place_iff hsame h _).mp hplace with hfile | ⟨dir,hdir,habove⟩
  · obtain rfl := (Rule.matchesAt_kept hother h false).mp hfile
    exact List.prefix_refl names
  · have hinit := prefix_of_mem_above hdir
    have hnames : ∀ name ∈ dir, isName name = true := fun name hname =>
      h name (hinit.subset hname)
    rwa [← (Rule.matchesAt_kept hother hnames true).mp habove]

end

/-- Lines with a name and a slash exclude what lies in the directories of these names, and not a
file that is named so. A path of several names that a last line takes back in stays, and with that
line nothing changes but at and below this path. Blank lines and comments change nothing. -/
theorem directory_lines_exclude_contents {root : String} {dirs : List String}
    (hroot : Path.isAbsolute root = true) (hdirs : ∀ d ∈ dirs, isPlain d = true) :
    ∃ m, ofLines root (dirs.map (· ++ "/")) = .ok m ∧
      (∀ names ≠ [], (∀ name ∈ names, isName name = true) →
        m.excludes? (slashed names) = some (decide (∃ d ∈ dirs, d ∈ names.dropLast))) ∧
      (∀ kept : List String, 2 ≤ kept.length → (∀ name ∈ kept, isPlain name = true) →
        ∃ extended, ofLines root (dirs.map (· ++ "/") ++ ["!" ++ slashed kept]) = .ok extended ∧
          extended.excludes? (slashed kept) = some false ∧
          ∀ names ≠ [], (∀ name ∈ names, isName name = true) → ¬kept <+: names →
            extended.excludes? (slashed names) = m.excludes? (slashed names)) ∧
      ∀ lines, ofLines root (lines.filter (!isSilent ·)) = ofLines root lines := by
  obtain ⟨m,hm,hrules⟩ := ofLines_directories root hdirs
  refine ⟨m,hm,fun names hne h => ?_,fun kept hlen hkept => ?_,ofLines_filter root⟩
  · have hsame := relative_of_absolute hm hroot hne h
    rw [excludes?_of_not_negated hne h (by simp [hrules, Rule.directory]), Option.some_inj,
      Bool.eq_iff_iff, decide_eq_true_iff, hrules]
    simp only [List.any_map, List.any_eq_true, Function.comp_apply]
    exact exists_congr fun d => and_congr_right fun hd =>
      exists_place_directory hsame h (hdirs d hd)
  · have hnames : ∀ name ∈ kept, isName name = true := fun name hname =>
      isName_of_isPlain (hkept name hname)
    have hkeptNe : kept ≠ [] := by
      rintro rfl
      simp at hlen
    refine ⟨_,ofLines_concat hm (Rule.ofLine_kept hlen hkept),?_,fun names hne h hbelow => ?_⟩
    · have hsame := relative_of_absolute hm hroot hkeptNe hnames
      have hplaces : m.places (slashed kept) = [] ++ (slashed kept, false) :: _ :=
        places_of_relative hnames hsame
      have hmatch := (Rule.matchesAt_kept hnames hnames false).mpr rfl
      exact excludes?_of_decides hkeptNe hnames (decides_concat hplaces hmatch (by simp))
    · have hsame := relative_of_absolute hm hroot hne h
      refine excludes?_concat hne h fun place hplace => Bool.eq_false_iff.mpr fun hmatch => ?_
      exact hbelow (prefix_of_place_kept hsame h hnames ⟨place,hplace,hmatch⟩)

/-- A file beside the one that is taken back in stays excluded, at any depth, and a file that has
only the name of the directory is not excluded. -/
theorem directory_lines_exclude_contents_build :
    ∃ m, ofLines "/project" ["# generated", "build/", " ", "!build/keep.py"] = .ok m ∧
      m.excludes? "build/keep.py" = some false ∧ m.excludes? "lib/build/out.py" = some true ∧
      m.excludes? "lib/build" = some false := by
  obtain ⟨m,-,hm,hkept,hlines⟩ := @directory_lines_exclude_contents "/project" ["build"] (by decide)
    (by decide)
  obtain ⟨extended,hextended,hback,hother⟩ := hkept ["build", "keep.py"] (by decide) (by decide)
  have hout := hother ["lib", "build", "out.py"] (by simp) (by decide) (by decide)
  have hfile := hother ["lib", "build"] (by simp) (by decide) (by decide)
  rw [hm _ (by simp) (by decide)] at hout hfile
  refine ⟨extended,?_,hback,hout.trans (by decide),hfile.trans (by decide)⟩
  rw [← hlines]
  exact hextended

end Matcher

end DocSnapshot.Ignore
