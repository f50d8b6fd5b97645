import DocSnapshot.Proofs.Json.Containers
import Mathlib.Data.List.Forall2

/-! The two written forms of a value differ only in blanks. What is read of either is the value
itself, as long as it holds no fractions and is not nested too deep. -/
namespace DocSnapshot.Json
open Reader

/-- A way to write values: the blanks in front of items and closing brackets at each depth and
behind colons, and the texts made with them. -/
structure Writing where
  text : Nat → Json → List Char
  line : Nat → List Char
  gap : List Char
  line_blank : ∀ d, Blank (line d)
  gap_blank : Blank gap
  text_null : ∀ d, text d .null = ['n', 'u', 'l', 'l']
  text_bool : ∀ d b, text d (.bool b) = compactChars (.bool b)
  text_nat : ∀ d n, text d (.nat n) = renderInt n
  text_str : ∀ d s, text d (.str s) = renderString s
  text_arr : ∀ d items, text d (.arr items) =
    '[' :: (between line d (items.map (text (d + 1))) ++ [']'])
  text_obj : ∀ d members, text d (.obj members) =
    '\x7b' :: (between line d ((members.map fun m => (m.1, ':' :: (gap ++ text (d + 1) m.2))).map
      memberText) ++ ['\x7d'])

private theorem commaSeparated_cons (x : List Char) (xs : List (List Char)) :
    commaSeparated (x :: xs) = x ++ xs.flatMap (',' :: ·) := by
  induction xs generalizing x with
  | nil => simp [commaSeparated]
  | cons y ys ih => simp [commaSeparated, ih]

private theorem compactItems_eq (items : List Json) :
    compactItems items = items.map compactChars := by
  induction items with
  | nil => rfl
  | cons j items ih => rw [compactItems, ih, List.map_cons]

private theorem compactMembers_eq (members : List (String × Json)) : compactMembers members =
    members.map fun m => renderString m.1 ++ ':' :: m.2.compactChars := by
  induction members with
  | nil => rfl
  | cons m members ih => rw [compactMembers, ih, List.map_cons]

private theorem between_nil (d : Nat) (texts : List (List Char)) :
    between (fun _ => []) d texts = commaSeparated texts := by
  cases texts with
  | nil => rfl
  | cons text texts => simp [between, commaTail, commaSeparated_cons]

def Writing.compact : Writing where
  text _ j := j.compactChars
  line _ := []
  gap := []
  line_blank _ := blank_nil
  gap_blank := blank_nil
  text_null _ := by rw [compactChars]
  text_bool _ _ := rfl
  text_nat _ _ := by rw [Json.nat, compactChars]
  text_str _ _ := by rw [compactChars]
  text_arr _ items := by rw [between_nil, compactChars, compactItems_eq, List.cons_append]
  text_obj _ members := by
    rw [between_nil, compactChars, compactMembers_eq, List.cons_append, List.map_map]
    rfl

private theorem prettyItems_eq (d : Nat) (items : List Json) :
    prettyItems d items = items.map (prettyChars d) := by
  induction items with
  | nil => rfl
  | cons j items ih => rw [prettyItems, ih, List.map_cons]

private theorem prettyMembers_eq (d : Nat) (members : List (String × Json)) :
    prettyMembers d members =
      members.map fun m => renderString m.1 ++ ':' :: ' ' :: m.2.prettyChars d := by
  induction members with
  | nil => rfl
  | cons m members ih => rw [prettyMembers, ih, List.map_cons]

private theorem layOut_eq (d : Nat) (opening closing : Char) (texts : List (List Char)) :
    layOut d opening closing texts = opening :: (between newline d texts ++ [closing]) := by
  cases texts with
  | nil => rfl
  | cons text texts => simp [layOut, between, commaTail, commaSeparated_cons, List.flatMap_map]

def Writing.pretty : Writing where
  text := prettyChars
  line := newline
  gap := [' ']
  line_blank d := by simp [Blank, newline, isSpace]
  gap_blank := by simp [Blank, isSpace]
  text_null _ := by rw [prettyChars, compactChars]
  text_bool _ _ := by rw [prettyChars]
  text_nat _ _ := by rw [Json.nat, prettyChars, compactChars]
  text_str _ _ := by rw [prettyChars, compactChars]
  text_arr d items := by rw [prettyChars, layOut_eq, prettyItems_eq]
  text_obj d members := by
    rw [prettyChars, layOut_eq, prettyMembers_eq, List.map_map]
    rfl

/-- Values that are written without loss: no fraction, no number outside of 64 bits, and fewer
containers inside of each other than may be opened. -/
inductive Readable : Depth → Json → Prop where
  | null (depth : Depth) : Readable (depth + 1) .null
  | bool (depth : Depth) (b : Bool) : Readable (depth + 1) (.bool b)
  | nat (depth : Depth) {n : Nat} (fits : n < Nat.pow 2 64) : Readable (depth + 1) (.nat n)
  | str (depth : Depth) (s : String) : Readable (depth + 1) (.str s)
  | arr {depth : Depth} {items : List Json} (each : ∀ j ∈ items, Readable (depth + 1) j) :
      Readable (depth + 2) (.arr items)
  | obj {depth : Depth} {members : List (String × Json)}
      (each : ∀ m ∈ members, Readable (depth + 1) m.2) : Readable (depth + 2) (.obj members)

namespace Writing

variable {w : Writing} {depth : Depth}

def members (w : Writing) (d : Nat) (ms : List (String × Json)) : List (String × List Char) :=
  ms.map fun m => (m.1, ':' :: (w.gap ++ w.text d m.2))

theorem members_append (w : Writing) (d : Nat) (ms ms' : List (String × Json)) :
    w.members d (ms ++ ms') = w.members d ms ++ w.members d ms' :=
  List.map_append

theorem text_object (w : Writing) (d : Nat) (ms : List (String × Json)) : w.text d (.obj ms) =
    '\x7b' :: (between w.line d ((w.members (d + 1) ms).map memberText) ++ ['\x7d']) :=
  w.text_obj d ms

private theorem takes_shallow_nat {n : Nat} (hn : n < Nat.pow 2 64) {rest : List Char}
    (he : Ends rest) : Takes shallow (renderInt n) rest (.nat n) := by
  obtain ⟨d,ds,hds,hd⟩ := exists_renderInt n
  have hne {c : Char} (hc : c.isDigit = false) : d ≠ c := ne_of_isDigit hd hc
  rw [hds]
  refine (takes_peek _).look ?_
  simp only [List.cons_append, List.head?_cons, ↓Char.isValue, Char.reduceIsDigit, hne, imp_self,
    hd, if_true]
  rw [← hds]
  exact takes_number hn he

private theorem steps_members {read : Reader Json} {d : Nat} {ms : List (String × Json)}
    (h : ∀ m ∈ ms, Reads read (w.text d m.2) m.2) (acc : List (String × Json)) :
    Steps (fun k acc => do
      colon
      let v ← read
      return (k, v) :: acc) (w.members d ms) acc (ms.reverse ++ acc) := by
  induction ms generalizing acc with
  | nil => exact .nil acc
  | cons m ms ih =>
    rw [List.forall_mem_cons] at h
    rw [List.reverse_cons, List.append_assoc, List.singleton_append]
    refine .cons (fun he => ?_) (ih h.2 (m :: acc))
    exact (takes_colon _).bind ((h.1.takes w.gap_blank he).last (takes_pure _ _))

/-- A written value is read as itself. -/
theorem reads_any (w : Writing) {j : Json} (h : Readable depth j) (d : Nat) :
    Reads (any depth) (w.text d j) j := by
  induction h generalizing d with
  | null depth =>
    rw [w.text_null, any]
    refine Reads.of_first rfl (by decide) fun _ => ?_
    refine (takes_peek _).look ?_
    exact (takes_bump 'n' _).bind ((takes_word ['u', 'l', 'l'] _).last (takes_pure _ _))
  | bool depth b =>
    rw [w.text_bool, any]
    cases b with
    | false =>
      refine Reads.of_first rfl (by decide) fun _ => ?_
      refine (takes_peek _).look ?_
      exact (takes_bump 'f' _).bind ((takes_word ['a', 'l', 's', 'e'] _).last (takes_pure _ _))
    | true =>
      refine Reads.of_first rfl (by decide) fun _ => ?_
      refine (takes_peek _).look ?_
      exact (takes_bump 't' _).bind ((takes_word ['r', 'u', 'e'] _).last (takes_pure _ _))
  | @nat depth n fits =>
    obtain ⟨c,cs,hcs,hc⟩ := exists_renderInt n
    have hne {c' : Char} (hc' : c'.isDigit = false) : c ≠ c' := ne_of_isDigit hc hc'
    rw [w.text_nat, any, hcs]
    refine Reads.of_first (isSpace_of_isDigit hc) (hne rfl) fun he => ?_
    -- A digit opens no container.
    simp only [↓Char.isValue, Char.reduceIsDigit, hne, imp_self]
    rw [← hcs]
    exact takes_shallow_nat fits he
  | str depth s =>
    rw [w.text_str, any]
    refine Reads.of_first rfl (by decide) fun _ => ?_
    refine (takes_peek _).look ?_
    exact (takes_bump '"' _).bind ((takes_stringRest s _).last (takes_pure _ _))
  | @arr depth items each ih =>
    have hitems : List.Forall₂ (Reads (any (depth + 1))) (items.map (w.text (d + 1))) items := by
      rw [List.forall₂_map_left_iff, List.forall₂_same]
      exact fun j hj => ih j hj (d + 1)
    rw [w.text_arr, any]
    refine Reads.of_first rfl (by decide) fun _ => ?_
    exact (takes_enter (Nat.succ_lt_succ (Nat.succ_pos depth)) '[' _).bind
      (takes_listRest d w.line_blank hitems (takes_pure _ _))
  | @obj depth ms each ih =>
    have hsteps := steps_members (fun m hm => ih m hm (d + 1)) []
    rw [List.append_nil] at hsteps
    rw [w.text_object, any]
    refine Reads.of_first rfl (by decide) fun _ => ?_
    refine (takes_enter (Nat.succ_lt_succ (Nat.succ_pos depth)) '\x7b' _).bind
      (hsteps.takes_rest d w.line_blank ?_)
    rw [List.reverse_reverse]
    exact takes_pure _ _

section Typed
variable (w : Writing) (d : Nat) (expected : String)

theorem reads_string (s : String) : Reads (string expected) (w.text d (.str s)) s := by
  rw [w.text_str]
  exact Reader.reads_string expected s

theorem reads_boolean (b : Bool) : Reads boolean (w.text d (.bool b)) b := by
  rw [w.text_bool]
  exact Reader.reads_boolean b

theorem reads_natural {n : Nat} (hn : n < Nat.pow 2 64) :
    Reads (natural expected) (w.text d (.nat n)) n := by
  rw [w.text_nat]
  exact Reader.reads_natural expected hn

theorem reads_strings (ss : List String) (hdepth : 1 < depth) :
    Reads (list depth expected fun _ => string "a string") (w.text d (.strings ss)) ss := by
  have hitems : List.Forall₂ (Reads (string "a string"))
      ((ss.map .str).map (w.text (d + 1))) ss := by
    rw [List.map_map, List.forall₂_map_left_iff, List.forall₂_same]
    exact fun s _ => w.reads_string (d + 1) _ s
  rw [strings, w.text_arr]
  exact Reads.list d w.line_blank hdepth hitems

theorem reads_optStr (o : Option String) :
    Reads (optional (string expected)) (w.text d (.optStr o)) o := by
  cases o with
  | none =>
    rw [optStr, w.text_null]
    exact reads_none _
  | some s =>
    refine (w.reads_string d expected s).optional ?_
    rw [w.text_str]
    simp [renderString]

theorem reads_optNat {o : Option Nat} (h : ∀ n ∈ o, n < Nat.pow 2 64) :
    Reads (optional (natural expected)) (w.text d (o.elim .null .nat)) o := by
  cases o with
  | none =>
    rw [Option.elim_none, w.text_null]
    exact reads_none _
  | some n =>
    refine (w.reads_natural d expected (h n rfl)).optional ?_
    obtain ⟨c,cs,hcs,hc⟩ := exists_renderInt n
    rw [w.text_nat, hcs]
    simpa using ne_of_isDigit hc rfl

end Typed

end Writing

end DocSnapshot.Json
