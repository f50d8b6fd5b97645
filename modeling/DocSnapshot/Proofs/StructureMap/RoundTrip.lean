import DocSnapshot.Proofs.Json.Outcome
import DocSnapshot.Proofs.Json.Writing
import DocSnapshot.Proofs.StructureMap.Insertions
import DocSnapshot.StructureMap.Json

/-! Structure maps and their texts. The keys of every level are written in the order of their bytes.
What is read of the text is the map again, unless it has more levels than a reader opens: then the
text is refused. Maps that are built, changed or read keep their levels in order. -/
namespace DocSnapshot

namespace OrderedMap

variable {α : Type}

/-- A name behind all others comes last. -/
theorem set_last {key : String} {a : α} {entries : List (String × α)}
    (h : ∀ e ∈ entries, e.1 < key) : set key a entries = entries ++ [(key, a)] := by
  induction entries with
  | nil => rfl
  | cons first rest ih =>
    obtain ⟨k,b⟩ := first
    rw [List.forall_mem_cons] at h
    have hne : key ≠ k := by
      rintro rfl
      exact String.lt_irrefl key h.1
    have hnlt : ¬key < k := fun hlt => String.lt_irrefl k (String.lt_trans h.1 hlt)
    rw [set, if_neg hne, if_neg hnlt, ih h.2, List.cons_append]

private theorem foldl_set {entries done : List (String × α)} (h : Increasing (done ++ entries)) :
    entries.foldl (fun m (k, a) => set k a m) done = done ++ entries := by
  induction entries generalizing done with
  | nil => simp
  | cons e entries ih =>
    obtain ⟨key,a⟩ := e
    have hbefore : ∀ f ∈ done, f.1 < key := fun f hf =>
      (List.pairwise_append.mp h).2.2 f hf (key, a) List.mem_cons_self
    rw [List.append_cons] at h
    rw [List.foldl_cons]
    show entries.foldl _ (set key a done) = _
    rw [set_last hbefore, ih h, List.append_assoc, List.singleton_append]

/-- A map that is in order is made of its entries as they come. -/
theorem Increasing.ofList {entries : List (String × α)} (h : Increasing entries) :
    OrderedMap.ofList entries = entries :=
  foldl_set h

/-- Whatever entries it is made of, a map is in order and holds none but them. -/
theorem increasing_ofList (entries : List (String × α)) :
    Increasing (OrderedMap.ofList entries) ∧ ∀ e ∈ OrderedMap.ofList entries, e ∈ entries := by
  induction entries using List.reverseRecOn with
  | nil => exact ⟨List.Pairwise.nil,fun _ he => he⟩
  | append_singleton entries last ih =>
    rw [OrderedMap.ofList, List.foldl_append, List.foldl_cons, List.foldl_nil]
    refine ⟨ih.1.set,fun e he => ?_⟩
    rcases mem_set he with rfl | he
    · simp
    · exact List.mem_append_left _ (ih.2 e he)

end OrderedMap

namespace Json

/-- Whether in every object of a value the keys come in the order of their bytes, each once. -/
inductive Sorted : Json → Prop where
  | null : Sorted .null
  | bool (b : Bool) : Sorted (.bool b)
  | int (n : Int) : Sorted (.int n)
  | float (x : Decimal.Binary64) : Sorted (.float x)
  | str (s : String) : Sorted (.str s)
  | arr {items : List Json} (each : ∀ j ∈ items, Sorted j) : Sorted (.arr items)
  | obj {members : List (String × Json)}
      (keys : members.Pairwise fun m m' => Text.Utf8.encode m.1 < Text.Utf8.encode m'.1)
      (each : ∀ m ∈ members, Sorted m.2) : Sorted (.obj members)

end Json

namespace StructureEntry
open Json (Readable Writing Sorted)
open Json.Reader

mutual
def levels : StructureEntry → Nat
  | .file _ => 0
  | .directory entries => levelsOf entries + 1

def levelsOf : List (String × StructureEntry) → Nat
  | [] => 0
  | (_, e) :: rest => max e.levels (levelsOf rest)
end

theorem membersOf_eq (entries : List (String × StructureEntry)) :
    membersOf entries = entries.map fun e => (e.1, e.2.toJson) := by
  induction entries with
  | nil => rfl
  | cons first rest ih => rw [membersOf, ih, List.map_cons]

mutual
/-- An entry is written without loss where its directories may be opened. -/
theorem readable_toJson : (e : StructureEntry) → (depth : Nat) → e.levels < depth →
    Readable depth e.toJson
  | .file record, depth, h => by
    obtain ⟨k,rfl⟩ := Nat.exists_eq_add_of_lt h
    rw [toJson]
    exact .str _ record
  | .directory entries, depth, h => by
    rw [levels] at h
    obtain ⟨k,rfl⟩ : ∃ k, depth = k + 2 := ⟨depth - 2,by omega⟩
    rw [toJson]
    exact .obj (readable_membersOf entries (k + 1) (by omega))

theorem readable_membersOf : (entries : List (String × StructureEntry)) → (depth : Nat) →
    levelsOf entries < depth → ∀ m ∈ membersOf entries, Readable depth m.2
  | [], _, _, _, hm => by cases hm
  | (key, e) :: rest, depth, h, m, hm => by
    rw [levelsOf, Nat.max_lt] at h
    rw [membersOf] at hm
    rcases List.mem_cons.mp hm with rfl | hm
    · exact readable_toJson e depth h.1
    · exact readable_membersOf rest depth h.2 m hm
end

mutual
/-- An entry in order is what its value is taken for. -/
theorem ofJson?_toJson : (e : StructureEntry) → e.Ordered → ofJson? e.toJson = some e
  | .file record, _ => by rw [toJson, ofJson?]
  | .directory entries, h => by
    rw [Ordered] at h
    rw [toJson, ofJson?, entriesOf?_membersOf entries h.2, Option.map_some, h.1.ofList]

theorem entriesOf?_membersOf : (entries : List (String × StructureEntry)) →
    OrderedAll entries → entriesOf? (membersOf entries) = some entries
  | [], _ => by rw [membersOf, entriesOf?]
  | (key, e) :: rest, h => by
    rw [OrderedAll] at h
    rw [membersOf, entriesOf?, ofJson?_toJson e h.1, entriesOf?_membersOf rest h.2]
    rfl
end

mutual
/-- Whatever a value is taken for is in order. -/
theorem ordered_of_ofJson? : (j : Json) → (e : StructureEntry) → ofJson? j = some e → e.Ordered
  | .str s, e, h => by
    rw [ofJson?] at h
    cases h
    trivial
  | .obj members, e, h => by
    rw [ofJson?, Option.map_eq_some_iff] at h
    obtain ⟨es,hes,rfl⟩ := h
    obtain ⟨hincreasing,hmem⟩ := OrderedMap.increasing_ofList es
    rw [ordered_directory]
    exact ⟨hincreasing,fun e he => ordered_of_entriesOf? members es hes e (hmem e he)⟩
  | .null, _, h | .bool _, _, h | .int _, _, h | .float _, _, h | .arr _, _, h => by
    rw [ofJson?] at h
    · cases h
    all_goals simp

theorem ordered_of_entriesOf? : (members : List (String × Json)) →
    (es : List (String × StructureEntry)) → entriesOf? members = some es → ∀ e ∈ es, e.2.Ordered
  | [], es, h, e, he => by
    rw [entriesOf?] at h
    cases h
    cases he
  | (key, j) :: rest, es, h, e, he => by
    rw [entriesOf?] at h
    simp only [Option.bind_eq_bind, Option.bind_eq_some_iff, Option.pure_def,
      Option.some.injEq] at h
    obtain ⟨first,hfirst,others,hothers,rfl⟩ := h
    rcases List.mem_cons.mp he with rfl | he
    · exact ordered_of_ofJson? j first hfirst
    · exact ordered_of_entriesOf? rest others hothers e he
end

theorem pairwise_membersOf {entries : List (String × StructureEntry)}
    (h : OrderedMap.Increasing entries) : (membersOf entries).Pairwise fun m m' =>
      Text.Utf8.encode m.1 < Text.Utf8.encode m'.1 := by
  rw [membersOf_eq, List.pairwise_map]
  exact h.imp fun hlt => (Text.Utf8.encode_lt_encode_iff _ _).mpr hlt

mutual
theorem sorted_toJson : (e : StructureEntry) → e.Ordered → Sorted e.toJson
  | .file record, _ => by
    rw [toJson]
    exact .str record
  | .directory entries, h => by
    rw [Ordered] at h
    rw [toJson]
    exact .obj (pairwise_membersOf h.1) (sorted_membersOf entries h.2)

theorem sorted_membersOf : (entries : List (String × StructureEntry)) → OrderedAll entries →
    ∀ m ∈ membersOf entries, Sorted m.2
  | [], _, _, hm => by cases hm
  | (key, e) :: rest, h, m, hm => by
    rw [OrderedAll] at h
    rw [membersOf] at hm
    rcases List.mem_cons.mp hm with rfl | hm
    · exact sorted_toJson e h.1
    · exact sorted_membersOf rest h.2 m hm
end

/-- Of members that are read to a depth, one that goes deeper stops the reading. -/
theorem stops_membersOf {β : Type} (w : Writing) (d : Nat) {depth : Nat} {reason : String}
    (store : String → β → Json → Json.Reader β) {entries : List (String × StructureEntry)}
    (hdeep : depth ≤ levelsOf entries) (hdepth : 0 < depth)
    (hrefused : ∀ e ∈ entries, depth ≤ e.2.levels → ∀ blanks rest, Blank blanks →
      Refuses (any depth) (blanks ++ (w.text d e.2.toJson ++ rest)) reason)
    (hstored : ∀ e ∈ entries, ∀ acc, ∃ acc', ∀ rest,
      Takes (store e.1 acc e.2.toJson) [] rest acc') (acc : β) :
    Stops (fun key acc => do
      colon
      let j ← any depth
      store key acc j) reason (w.members d (membersOf entries)) acc := by
  induction entries generalizing acc with
  | nil =>
    rw [levelsOf] at hdeep
    omega
  | cons first rest ih =>
    obtain ⟨key,e⟩ := first
    rw [List.forall_mem_cons] at hrefused hstored
    rw [levelsOf] at hdeep
    by_cases he : depth ≤ e.levels
    · refine .here fun rest => ?_
      have hrest := hrefused.1 he w.gap rest w.gap_blank
      rw [← List.append_assoc] at hrest
      exact (takes_colon _).bind_refuses hrest.bind
    · obtain ⟨acc',hacc⟩ := hstored.1 acc
      have hread := w.reads_any (readable_toJson e depth (Nat.not_le.mp he)) d
      refine .later (fun hend => ?_) (ih (by omega) hrefused.2 hstored.2 acc')
      exact (takes_colon _).bind ((hread.takes w.gap_blank hend).last (hacc _))

mutual
/-- An entry with more directories inside of each other than may be opened is refused. -/
theorem refuses_toJson (w : Writing) : (e : StructureEntry) → (depth : Nat) →
    depth ≤ e.levels → ∀ (d : Nat) (blanks rest : List Char), Blank blanks →
    Refuses (any depth) (blanks ++ (w.text d e.toJson ++ rest)) "recursion limit exceeded"
  | e, 0, _, _, _, _, _ => by
    intro mark
    rw [any]
    exact ⟨_,rfl⟩
  | .file record, depth + 1, h, _, _, _, _ => by
    rw [levels] at h
    omega
  | .directory entries, depth + 1, h, d, blanks, rest, hblanks => by
    rw [levels, Nat.add_le_add_iff_right] at h
    rw [toJson, w.text_object, any, List.cons_append]
    refine (takes_startOfValue hblanks rfl).bind_refuses ?_
    cases depth with
    | zero => exact (refuses_enter (Nat.le_refl 1) _).bind
    | succ depth =>
      have hstops := stops_membersOf w (d + 1) (fun key acc j => pure ((key, j) :: acc)) h
        (Nat.succ_pos depth) (fun e he hlevels blanks rest => refuses_membersOf w entries
          (depth + 1) e he hlevels (d + 1) blanks rest)
        (fun _ _ _ => ⟨_,takes_pure _⟩) []
      rw [List.append_assoc, List.singleton_append]
      refine (takes_enter (show 1 < depth + 1 + 1 by omega) '\x7b' _).bind_refuses ?_
      exact hstops.refuses_rest d w.line_blank

theorem refuses_membersOf (w : Writing) : (entries : List (String × StructureEntry)) →
    (depth : Nat) → ∀ e ∈ entries, depth ≤ e.2.levels →
    ∀ (d : Nat) (blanks rest : List Char), Blank blanks →
    Refuses (any depth) (blanks ++ (w.text d e.2.toJson ++ rest)) "recursion limit exceeded"
  | [], _, e, he, _, _, _, _, _ => by cases he
  | (key, first) :: others, depth, e, he, h, d, blanks, rest, hblanks => by
    rcases List.mem_cons.mp he with rfl | he
    · exact refuses_toJson w first depth h d blanks rest hblanks
    · exact refuses_membersOf w others depth e he h d blanks rest hblanks
end

end StructureEntry

namespace StructureMap
open Json (Writing)
open Json.Reader
open StructureEntry (OrderedBelow levelsOf membersOf)

def levels (m : StructureMap) : Nat := levelsOf m.entries + 1

/-- The maps that come of any sequence of readings, builds and additions. -/
inductive Reachable : StructureMap → Prop where
  | empty : Reachable empty
  | build (sources : List String) : Reachable (build sources)
  | insert {m : StructureMap} (before : Reachable m) (source : String) :
      Reachable (m.insert source)
  | read {m : StructureMap} {text : String} (loaded : ofText text = .ok m) : Reachable m

private def store (key : String) (acc : List (String × StructureEntry)) (j : Json) :
    Json.Reader (List (String × StructureEntry)) :=
  match StructureEntry.ofJson? j with
  | some e => return OrderedMap.set key e acc
  | none => failClosing '\x7d' "data did not match any variant of untagged enum StructureEntry"

private theorem yields_store (key : String) {acc : List (String × StructureEntry)}
    (hacc : OrderedBelow acc) (j : Json) : Yields (store key acc j) OrderedBelow := by
  rw [store]
  split
  · next e he => exact yields_pure (hacc.set (StructureEntry.ordered_of_ofJson? j e he))
  · exact yields_failClosing _ _

private theorem yields_read : Yields read fun m => OrderedBelow m.entries := by
  refine Yields.next fun c => ?_
  split
  · refine Yields.next fun depth => Yields.next fun fuel => ?_
    refine Yields.bind (P := OrderedBelow) (yields_members ?_ fuel true holds_empty.ordered)
      fun entries hentries => Yields.next fun _ => yields_pure hentries
    exact fun key acc hacc => Yields.next fun _ => Yields.next fun j => yields_store key hacc j
  · exact yields_mismatch _

theorem Reachable.ordered {m : StructureMap} (h : Reachable m) : OrderedBelow m.entries := by
  induction h with
  | empty => exact holds_empty.ordered
  | build sources => exact orderedBelow_foldl _
  | insert _ source ih => exact ih.insert _ _
  | read loaded => exact yields_read.whole loaded

private theorem takes_store {e : StructureEntry} (he : e.Ordered) (key : String)
    (acc : List (String × StructureEntry)) (rest : List Char) :
    Takes (store key acc e.toJson) [] rest (OrderedMap.set key e acc) := by
  rw [store, StructureEntry.ofJson?_toJson e he]
  exact takes_pure _ _

private theorem steps_membersOf (w : Writing) (d : Nat) {depth : Nat}
    {done entries : List (String × StructureEntry)} (h : OrderedBelow (done ++ entries))
    (hlevels : levelsOf entries < depth) :
    Steps (fun key acc => do
      colon
      let j ← any depth
      store key acc j) (w.members d (membersOf entries)) done (done ++ entries) := by
  induction entries generalizing done with
  | nil =>
    rw [List.append_nil]
    exact .nil done
  | cons first entries ih =>
    obtain ⟨key,e⟩ := first
    rw [levelsOf, Nat.max_lt] at hlevels
    have hbefore : ∀ f ∈ done, f.1 < key := fun f hf =>
      (List.pairwise_append.mp h.1).2.2 f hf (key, e) List.mem_cons_self
    have he : e.Ordered := h.2 (key, e) (by simp)
    rw [List.append_cons] at h ⊢
    refine .cons (fun hend => ?_) (ih h hlevels.2)
    have hread := w.reads_any (StructureEntry.readable_toJson e depth hlevels.1) d
    rw [← OrderedMap.set_last hbefore]
    exact (takes_colon _).bind ((hread.takes w.gap_blank hend).last (takes_store he key done _))

/-- A map with no more levels than may be opened is read as itself. -/
theorem reads_read (w : Writing) {m : StructureMap} (h : OrderedBelow m.entries)
    (hlevels : m.levels ≤ 127) (d : Nat) : Reads read (w.text d m.toJson) m := by
  have hsteps := @steps_membersOf w (d + 1) _ [] _ h (Nat.lt_of_succ_le hlevels)
  rw [toJson, w.text_object]
  refine Reads.of_first rfl (by decide) fun _ => ?_
  exact (takes_enter (by decide) '\x7b' _).bind
    (hsteps.takes_rest d w.line_blank (takes_pure _ _))

private theorem refuses_read (w : Writing) {m : StructureMap} (h : OrderedBelow m.entries)
    (hlevels : 127 < m.levels) (d : Nat) :
    Refuses read (w.text d m.toJson) "recursion limit exceeded" := by
  have hstops := StructureEntry.stops_membersOf w (d + 1) store
    (Nat.le_of_lt_succ hlevels) (by decide)
    (fun e _ hdeep blanks rest => StructureEntry.refuses_toJson w e.2 127 hdeep (d + 1) blanks rest)
    (fun e he acc => ⟨_,takes_store (h.2 e he) e.1 acc⟩) []
  rw [toJson, w.text_object]
  refine (takes_startOfValue blank_nil rfl).bind_refuses ?_
  refine (takes_enter (by decide) '\x7b' _).bind_refuses ?_
  exact hstops.refuses_rest d w.line_blank

/-- In the text of a map the keys of every level come in the order of their bytes. The text is read
as the map exactly when the map has at most 127 levels, and refused otherwise. All this is about
maps that are in order, as those are that are built, changed or read. -/
theorem ofText_compact_iff_levels (m : StructureMap) :
    (Reachable m → OrderedBelow m.entries) ∧
    (OrderedBelow m.entries →
      m.toJson.Sorted ∧
      (∀ depth, m.levels < depth → whole (any depth) m.toJson.compact = .ok m.toJson) ∧
      (ofText m.toJson.compact = .ok m ↔ m.levels ≤ 127) ∧
      (127 < m.levels → ∃ fault, ofText m.toJson.compact = .error fault)) := by
  have hdirectory : m.toJson = (StructureEntry.directory m.entries).toJson := by
    rw [StructureEntry.toJson, toJson]
  have hrefused (h : OrderedBelow m.entries) (hlevels : 127 < m.levels) :
      ∃ fault, ofText m.toJson.compact = .error fault := by
    obtain ⟨place,hplace⟩ := (refuses_read Writing.compact h hlevels 0).whole
    exact ⟨_,hplace⟩
  refine ⟨Reachable.ordered,fun h => ⟨?_,fun depth hdepth => ?_,⟨fun hread => ?_,fun hlevels => ?_⟩,
    hrefused h⟩⟩
  · rw [hdirectory]
    exact StructureEntry.sorted_toJson _ ((StructureEntry.ordered_directory _).mpr h)
  · have hread := Writing.compact.reads_any (StructureEntry.readable_toJson
      (.directory m.entries) depth (by rwa [StructureEntry.levels])) 0
    rw [hdirectory]
    exact hread.whole
  · by_contra hlevels
    obtain ⟨fault,hfault⟩ := hrefused h (Nat.not_le.mp hlevels)
    rw [hread] at hfault
    cases hfault
  · exact (reads_read Writing.compact h hlevels 0).whole

private def nested : Nat → StructureEntry
  | 0 => .directory []
  | n + 1 => .directory [("\"", nested n)]

private theorem ordered_nested (n : Nat) : (nested n).Ordered := by
  induction n with
  | zero => simp [nested, StructureEntry.ordered_directory, OrderedBelow, OrderedMap.Increasing]
  | succ n ih =>
    rw [nested, StructureEntry.ordered_directory]
    exact ⟨List.pairwise_singleton ..,by simpa using ih⟩

private theorem levels_nested (n : Nat) : (nested n).levels = n + 1 := by
  induction n with
  | zero => rfl
  | succ n ih => simp [nested, StructureEntry.levels, levelsOf, ih]

/-- A map of 127 levels is read again, and one of 128 is not. -/
theorem ofText_compact_nested :
    (∃ m : StructureMap, m.levels = 127 ∧ ofText m.toJson.compact = .ok m) ∧
    ∃ (m : StructureMap) (fault : Json.Fault), m.levels = 128 ∧
      ofText m.toJson.compact = .error fault := by
  have hordered (n : Nat) : OrderedBelow [("\"", nested n), ("a\u0007é", .file "\\")] := by
    have hkeys : "\"" < "a\u0007é" := by decide
    refine ⟨List.pairwise_pair.mpr hkeys,?_⟩
    simpa [StructureEntry.Ordered] using ordered_nested n
  have hlevels (n : Nat) :
      levels ⟨[("\"", nested n), ("a\u0007é", .file "\\")]⟩ = n + 2 := by
    simp [levels, levelsOf, levels_nested, StructureEntry.levels]
  obtain ⟨-,-,hread,-⟩ := (ofText_compact_iff_levels _).2 (hordered 125)
  obtain ⟨-,-,-,hrefused⟩ := (ofText_compact_iff_levels _).2 (hordered 126)
  obtain ⟨fault,hfault⟩ := hrefused (by rw [hlevels]; decide)
  exact ⟨⟨_,hlevels 125,hread.mpr (by rw [hlevels])⟩,_,fault,hlevels 126,hfault⟩

end StructureMap

end DocSnapshot
