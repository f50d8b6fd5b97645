import DocSnapshot.Proofs.FileSystem.Reach
import DocSnapshot.Proofs.Ignore.Precedence
import DocSnapshot.Proofs.Sources
import Mathlib.Data.Set.Card

/-! A scan finds the sources of a project exactly: each regular file that is named like a source and
that no hidden directory leads to is either listed, in the order of its bytes, or counted as
excluded. -/
namespace DocSnapshot.Scan
open DocSnapshot.Path (isName)
open FileSystem (filesBelow)

/-- A regular file below a directory, by its path from there, whose name ends with `.py` behind
something else, and whose way leads through no hidden directory. -/
def Candidate (fs : FileSystem) (dir : List String) (source : String) : Prop :=
  ∃ dirs stem, source = slashed (dirs ++ [stem ++ ".py"]) ∧ stem ≠ "" ∧
    (∃ bytes x, fs.kind? (dir ++ (dirs ++ [stem ++ ".py"])) = some (.file bytes x)) ∧
    ∀ d ∈ dirs, Node.isHiddenName d = false

variable {fs : FileSystem} {root : String} {dir : List String}

private theorem Candidate.walked (hfs : fs.Proper) (hdir : fs.kind? dir = some .dir)
    {source : String} (h : Candidate fs dir source) : ∃ path ∈ fs.filesBelow dir false,
      slashed path = source ∧ path ≠ [] ∧ (∀ name ∈ path, isName name = true) ∧
      Path.isSource source = true := by
  obtain ⟨dirs,stem,rfl,hstem,hfile,hshown⟩ := h
  have hpath : dirs ++ [stem ++ ".py"] ∈ fs.filesBelow dir false := by
    rw [FileSystem.mem_filesBelow hfs.ordered hdir, List.dropLast_concat]
    exact ⟨hfile,hshown⟩
  obtain ⟨hne,hnames⟩ := hfs.isName_of_mem hpath
  exact ⟨_,hpath,rfl,hne,hnames,(Path.isSource_slashed_iff hnames).mpr ⟨stem,hstem,rfl⟩⟩

private theorem mem_sources_iff (hfs : fs.Proper) (hdir : fs.kind? dir = some .dir)
    (source : String) :
    source ∈ ((fs.filesBelow dir false).map slashed).filter Path.isSource ↔
      Candidate fs dir source := by
  rw [List.mem_filter, List.mem_map]
  constructor
  · rintro ⟨⟨path,hpath,rfl⟩,hsource⟩
    obtain ⟨hne,hnames⟩ := hfs.isName_of_mem hpath
    obtain ⟨dirs,name,rfl⟩ := (List.eq_nil_or_concat path).resolve_left hne
    rw [List.concat_eq_append] at hpath hnames hsource ⊢
    obtain ⟨stem,hstem,rfl⟩ := (Path.isSource_slashed_iff hnames).mp hsource
    rw [FileSystem.mem_filesBelow hfs.ordered hdir, List.dropLast_concat] at hpath
    exact ⟨dirs,stem,rfl,hstem,hpath.1,hpath.2⟩
  · intro h
    obtain ⟨path,hpath,hslashed,-,-,hsource⟩ := h.walked hfs hdir
    exact ⟨⟨path,hpath,hslashed⟩,hsource⟩

private theorem nodup_sources (hfs : fs.Proper) (hdir : fs.kind? dir = some .dir) :
    (((fs.filesBelow dir false).map slashed).filter Path.isSource).Nodup := by
  refine List.Nodup.filter _ ((List.nodup_map_iff_inj_on ?_).mpr ?_)
  · exact FileSystem.nodup_filesBelow hfs.ordered hdir
  · intro path hpath other hother heq
    obtain ⟨hne,hnames⟩ := hfs.isName_of_mem hpath
    obtain ⟨hne',hnames'⟩ := hfs.isName_of_mem hother
    rw [← Path.partsOf_slashed hne hnames, heq, Path.partsOf_slashed hne' hnames']

private theorem Candidate.getD_eq (hfs : fs.Proper) (hdir : fs.kind? dir = some .dir)
    {source : String} (h : Candidate fs dir source) (m : Ignore.Matcher) (b : Bool) :
    (m.excludes? source).getD false = b ↔ m.excludes? source = some b := by
  obtain ⟨path,-,rfl,hne,hnames,-⟩ := h.walked hfs hdir
  rw [Ignore.Matcher.excludes?_eq hne hnames, Option.getD_some, Option.some_inj]

/-- A scan of a directory succeeds whatever the order in which files are found. It lists in the
order of their bytes exactly the candidates that are not excluded, and counts the others. -/
theorem run_finds_exactly (hfs : fs.Proper) {es : List (String × Node)}
    (hstat : fs.stat root = .ok (dir, .dir es)) (m : Ignore.Matcher) :
    ∃ scan, Scan.run fs root m false = .ok scan ∧
      (∀ found : List (List String), found.Perm (fs.filesBelow dir false) →
        ofFiles root m (found.map slashed) = scan) ∧
      scan.files.Pairwise (fun a b => Text.Utf8.encode a < Text.Utf8.encode b) ∧
      (∀ source, source ∈ scan.files ↔
        Candidate fs dir source ∧ m.excludes? source = some false) ∧
      {source | Candidate fs dir source ∧ m.excludes? source = some true}.encard =
        scan.ignoredCount := by
  have hdir := FileSystem.kind?_of_find? (FileSystem.find?_of_stat hfs.kind?_root hstat)
  refine ⟨ofFiles root m ((fs.filesBelow dir false).map slashed),?_,fun found hperm => ?_,?_,
    fun source => ?_,?_⟩
  · simp [Scan.run, walk, hstat, Except.map]
  · exact ofFiles_perm ((hperm.map slashed).filter _)
  · exact (Text.pairwise_sorted _).imp fun h => (Text.Utf8.encode_lt_encode_iff _ _).mpr h
  · simp only [ofFiles]
    rw [Text.mem_sorted, List.mem_filter, mem_sources_iff hfs hdir, Bool.not_eq_true']
    exact and_congr_right fun h => h.getD_eq hfs hdir m false
  · have hset : {source | Candidate fs dir source ∧ m.excludes? source = some true} =
        ((((fs.filesBelow dir false).map slashed).filter Path.isSource).filter fun source =>
          (m.excludes? source).getD false).toFinset := by
      ext source
      rw [Finset.mem_coe, List.mem_toFinset, List.mem_filter, mem_sources_iff hfs hdir]
      exact and_congr_right fun h => (h.getD_eq hfs hdir m true).symm
    rw [hset, Set.encard_coe_eq_coe_finsetCard,
      List.toFinset_card_of_nodup ((nodup_sources hfs hdir).filter _)]
    rfl

private def mixed : FileSystem :=
  ⟨.dir [("p", .dir [(".git", .dir [("a.py", .file [] false)]), (".hidden.py", .file [] false),
    (".py", .file [] false), ("build", .dir [("gen.py", .file [] false)]),
    ("link.py", .link ".hidden.py"), ("pkg.py", .dir [("m.py", .file [] false)])])]⟩

private def withoutBuild : Ignore.Matcher :=
  ⟨"/p", [⟨"build/", false, true, .deepStart :: "build".toList.map .literal⟩]⟩

theorem run_finds_exactly_mixed :
    ∃ scan, Scan.run mixed "/p" withoutBuild false = .ok scan ∧ ".hidden.py" ∈ scan.files ∧
      "pkg.py/m.py" ∈ scan.files ∧ "build/gen.py" ∉ scan.files ∧ scan.ignoredCount = 1 := by
  have hproper : mixed.Proper := ⟨⟨rfl,by decide⟩,by decide⟩
  obtain ⟨scan,hrun,horder,-,hfiles,-⟩ := run_finds_exactly hproper
    (@FileSystem.stat_of_reaches mixed "/p" "p" [] _ (by decide) (by decide) rfl) withoutBuild
  refine ⟨scan,hrun,(hfiles _).mpr ?_,(hfiles _).mpr ?_,fun hmem => ?_,?_⟩
  · exact ⟨⟨[],".hidden",by decide,by decide,⟨[],false,rfl⟩,by simp⟩,by decide +kernel⟩
  · exact ⟨⟨["pkg.py"],"m",by decide,by decide,⟨[],false,rfl⟩,by decide⟩,by decide +kernel⟩
  · have hexcluded : withoutBuild.excludes? "build/gen.py" = some true := by decide +kernel
    rw [((hfiles _).mp hmem).2] at hexcluded
    cases hexcluded
  · have hfound := horder [["pkg.py", "m.py"], ["build", "gen.py"], [".py"], [".hidden.py"]]
      (by decide)
    rw [← hfound]
    decide +kernel

end DocSnapshot.Scan
