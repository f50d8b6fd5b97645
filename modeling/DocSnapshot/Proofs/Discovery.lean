import DocSnapshot.Discovery
import DocSnapshot.Proofs.FileSystem.Kind
import DocSnapshot.Proofs.Path

/-! A scan of well-formed files finds sources by their names. -/
namespace DocSnapshot

namespace Node
open DocSnapshot.Path (isName)

mutual
def legal : Node → Bool
  | .dir es => legalAll es
  | _ => true

def legalAll : List (String × Node) → Bool
  | [] => true
  | (name, n) :: rest => isName name && n.legal && legalAll rest
end

private theorem legal_of_get? {s : String} {es : List (String × Node)} {n : Node}
    (h : legalAll es = true) (hget : OrderedMap.get? s es = some n) : n.legal = true := by
  induction es with
  | nil => cases hget
  | cons e rest ih =>
    simp only [legalAll, Bool.and_eq_true] at h
    rw [OrderedMap.get?] at hget
    split at hget
    · cases hget
      exact h.1.2
    · exact ih h.2 hget

private theorem legalAll_entries {n : Node} (h : n.legal = true) : legalAll n.entries = true := by
  cases n with
  | dir es => rwa [legal] at h
  | _ => rfl

theorem legal_of_find? {path : List String} {n m : Node} (h : n.legal = true)
    (hfind : n.find? path = some m) : m.legal = true := by
  induction path generalizing n with
  | nil =>
    cases hfind
    exact h
  | cons s rest ih =>
    rw [find?, Option.bind_eq_some_iff] at hfind
    obtain ⟨k,hk,hfind⟩ := hfind
    exact ih (legal_of_get? (legalAll_entries h) hk) hfind

mutual
private theorem isName_of_mem_files {path : List String} : (n : Node) → n.legal = true →
    path ∈ n.files → ∀ name ∈ path, isName name = true
  | .file _ _, _, hmem, name, hname => by
    rw [files, List.mem_singleton] at hmem
    simp [hmem] at hname
  | .link _, _, hmem, _, _ => by simp [files] at hmem
  | .dir es, h, hmem, name, hname => by
    rw [files] at hmem
    rw [legal] at h
    exact (isName_of_mem_filesOf es h hmem).2 name hname

private theorem isName_of_mem_filesOf {path : List String} : (es : List (String × Node)) →
    legalAll es = true → path ∈ filesOf es → path ≠ [] ∧ ∀ name ∈ path, isName name = true
  | [], _, hmem => by simp [filesOf] at hmem
  | (name, n) :: rest, h, hmem => by
    simp only [legalAll, Bool.and_eq_true] at h
    rw [filesOf, List.mem_append] at hmem
    rcases hmem with hmem | hmem
    · split at hmem
      · simp at hmem
      · obtain ⟨below,hbelow,rfl⟩ := List.mem_map.mp hmem
        refine ⟨by simp,fun part hpart => ?_⟩
        rcases List.mem_cons.mp hpart with rfl | hpart
        · exact h.1.1
        · exact isName_of_mem_files n h.1.2 hbelow part hpart
    · exact isName_of_mem_filesOf rest h.2 hmem
end

end Node

/-- A file system as it can be: a root directory, and names that files can have. -/
structure FileSystem.WellFormed (fs : FileSystem) : Prop where
  root : fs.root.isDir = true
  legal : fs.root.legal = true

theorem FileSystem.WellFormed.kind?_root {fs : FileSystem} (h : fs.WellFormed) :
    fs.kind? [] = some .dir := by
  have hroot := h.root
  rw [FileSystem.kind?_eq, FileSystem.find?, Node.find?]
  cases hr : fs.root with
  | dir es => rfl
  | _ => simp [hr, Node.isDir] at hroot

/-- A walk finds files by names that files can have. -/
theorem FileSystem.WellFormed.isName_of_mem {fs : FileSystem} (h : fs.WellFormed)
    {dir path : List String} (hmem : path ∈ fs.filesBelow dir false) :
    path ≠ [] ∧ ∀ name ∈ path, Path.isName name = true := by
  have hlegal : Node.legalAll (((fs.find? dir).map Node.entries).getD []) = true := by
    cases hfind : fs.find? dir with
    | none => rfl
    | some n => exact Node.legalAll_entries (Node.legal_of_find? h.legal hfind)
  exact Node.isName_of_mem_filesOf _ hlegal hmem

/-- A source that was found: its path, cut into the directories it is in and its name. -/
structure Path.Source (source : String) (dirs : List String) (name : String) : Prop where
  slashed : source = Scan.slashed (dirs ++ [name])
  names : ∀ part ∈ dirs ++ [name], Path.isName part = true
  isSource : Path.isSource source = true

/-- Without an ignore file nothing is excluded. -/
theorem Ignore.Matcher.load_of_missing {fs : FileSystem} {root file : String}
    (h : fs.exists? (Path.join root file) = false) : load fs root file = .empty := by
  have hfile : ofFile fs root file = .ok .empty := by
    unfold ofFile
    exact if_neg (by rw [h]; exact Bool.false_ne_true)
  unfold load
  simp only [hfile]

private theorem exists?_of_read {fs : FileSystem} {path : String} {bytes : List UInt8}
    (h : fs.read path = .ok bytes) : fs.exists? path = true := by
  rw [FileSystem.read] at h
  rw [FileSystem.exists?]
  cases hstat : fs.stat path with
  | ok found => rfl
  | error e => rw [hstat] at h; cases h

private theorem load_of_unread {fs : FileSystem} {root file : String} {e : IoError}
    (h : fs.read (Path.join root file) = .error e) :
    Ignore.Matcher.load fs root file = .empty := by
  cases hexists : fs.exists? (Path.join root file) with
  | false => exact Ignore.Matcher.load_of_missing hexists
  | true =>
    have htext : fs.readText (Path.join root file) = .error e := by
      rw [FileSystem.readText, h]
      rfl
    have hfile : Ignore.Matcher.ofFile fs root file = .error (.io e) := by
      unfold Ignore.Matcher.ofFile
      simp only [hexists, htext, if_true]
    unfold Ignore.Matcher.load
    simp only [hfile]

/-- What the lines of an ignore file exclude. -/
theorem Ignore.Matcher.load_of_read {fs : FileSystem} {root file text : String}
    {bytes : List UInt8} {m : Matcher} (hread : fs.read (Path.join root file) = .ok bytes)
    (htext : Text.Utf8.decode bytes = .ok text)
    (hlines : compile root (Path.join root file) ((Text.lines text.toList).map String.ofList) =
      .ok m) : load fs root file = m := by
  have hreadText : fs.readText (Path.join root file) = .ok text := by
    simp only [FileSystem.readText, hread, bind, Except.bind, htext]
    rfl
  unfold load ofFile
  simp only [exists?_of_read hread, hreadText, hlines, if_true]

/-- What an ignore file excludes is a matter of what can be read there. -/
theorem Ignore.Matcher.load_congr {fs gs : FileSystem} {root file : String}
    (h : ∀ bytes, fs.read (Path.join root file) = .ok bytes ↔
      gs.read (Path.join root file) = .ok bytes) : load fs root file = load gs root file := by
  cases hfs : fs.read (Path.join root file) with
  | ok bytes =>
    have hgs := (h bytes).mp hfs
    have htext : fs.readText (Path.join root file) = gs.readText (Path.join root file) := by
      rw [FileSystem.readText, FileSystem.readText, hfs, hgs]
    unfold load ofFile
    simp only [exists?_of_read hfs, exists?_of_read hgs, htext]
  | error e =>
    cases hgs : gs.read (Path.join root file) with
    | ok bytes => cases hfs.symm.trans ((h bytes).mpr hgs)
    | error e' => rw [load_of_unread hfs, load_of_unread hgs]

/-- A scan that comes upon one source. -/
theorem Scan.run_single {fs : FileSystem} {root source : String} {dir : List String}
    {es : List (String × Node)} (hstat : fs.stat root = .ok (dir, .dir es))
    (hsources : ((fs.filesBelow dir false).map slashed).filter Path.isSource = [source]) :
    Scan.run fs root .empty false = .ok ⟨root, [source], 0⟩ := by
  have hplain : Ignore.Matcher.excludes? .empty source = some false := by
    simp [Ignore.Matcher.excludes?, Ignore.Matcher.empty]
  simp [Scan.run, walk, hstat, Except.map, ofFiles, hsources, hplain, List.eraseDups_cons]

/-- The sources of a scan are files below its root, by their names. -/
theorem Scan.mem_of_run {fs : FileSystem} {root : String} {m : Ignore.Matcher} {scan : Scan}
    (hfs : fs.WellFormed) (h : Scan.run fs root m false = .ok scan) {source : String}
    (hmem : source ∈ scan.files) : ∃ dir es dirs name, fs.stat root = .ok (dir, .dir es) ∧
      dirs ++ [name] ∈ fs.filesBelow dir false ∧ Path.Source source dirs name := by
  rw [Scan.run, Scan.walk] at h
  split at h
  · next dir es hstat =>
    cases h
    have hmem : source ∈ ((fs.filesBelow dir false).map slashed).filter Path.isSource := by
      simp only [ofFiles, List.mem_eraseDups, List.mem_mergeSort] at hmem
      exact (List.mem_filter.mp hmem).1
    rw [List.mem_filter] at hmem
    obtain ⟨path,hpath,rfl⟩ := List.mem_map.mp hmem.1
    obtain ⟨hne,hnames⟩ := hfs.isName_of_mem hpath
    obtain ⟨dirs,name,rfl⟩ := (List.eq_nil_or_concat path).resolve_left hne
    rw [List.concat_eq_append] at hpath hmem hnames ⊢
    exact ⟨dir,es,dirs,name,hstat,hpath,rfl,hnames,hmem.2⟩
  · cases h

theorem Scan.not_mem_of_excluded {fs : FileSystem} {root source : String} {m : Ignore.Matcher}
    {scan : Scan} (h : Scan.run fs root m false = .ok scan)
    (hexcluded : m.excludes? source = some true) : source ∉ scan.files := by
  rw [Scan.run, Scan.walk] at h
  split at h
  · cases h
    simp [ofFiles, hexcluded]
  · cases h

theorem Scan.source_of_run {fs : FileSystem} {root : String} {m : Ignore.Matcher} {scan : Scan}
    (hfs : fs.WellFormed) (h : Scan.run fs root m false = .ok scan) {source : String}
    (hmem : source ∈ scan.files) : ∃ dirs name, Path.Source source dirs name := by
  obtain ⟨-,-,dirs,name,-,-,hsource⟩ := mem_of_run hfs h hmem
  exact ⟨dirs,name,hsource⟩

end DocSnapshot
