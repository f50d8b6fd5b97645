import DocSnapshot.Proofs.FileSystem.Kind
import DocSnapshot.Proofs.Path

/-! The place of a directory: where a path leads through all links, also when some of the
directories on the way are still to be made. -/
namespace DocSnapshot.FileSystem
open DocSnapshot.Path (isReal real names isName)

/-- Follows the parts of a path through directories. A missing one counts only when it is `made` on
the way. The result is the number of links still allowed and the names of the place, last first. -/
def trace (fs : FileSystem) (made : Bool) (links : Nat) (here parts : List String) :
    Option (Nat × List String) :=
  match parts with
  | [] => some (links, here)
  | p :: rest =>
    if p = "" || p = "." then trace fs made links here rest
    else if p = ".." then trace fs made links here.tail rest
    else match fs.kind? (p :: here).reverse with
      | some .dir => trace fs made links (p :: here) rest
      | some (.file _ _) => none
      | some (.link target) =>
        match links with
        | 0 => none
        | n + 1 =>
          trace fs made n (if Path.isAbsolute target then [] else here) (partsOf target ++ rest)
      | none => if made then trace fs made links (p :: here) rest else none
termination_by (links, parts.length)

def place (fs : FileSystem) (path : String) : Option (List String) :=
  (fs.trace true maxLinks [] (partsOf path)).map (·.2.reverse)

variable {fs gs : FileSystem} {made : Bool} {links : Nat} {here : List String}

theorem trace_append (xs ys : List String) :
    fs.trace made links here (xs ++ ys) =
      (fs.trace made links here xs).bind fun r => fs.trace made r.1 r.2 ys := by
  fun_induction trace fs made links here xs with
  | case1 links here => rfl
  | case2 links here p rest h ih => rw [List.cons_append, trace, if_pos h, ih]
  | case3 links here rest h ih => rw [List.cons_append, trace, if_neg h, if_pos rfl, ih]
  | case4 links here p rest h hp hk ih =>
    rw [List.cons_append, trace, if_neg h, if_neg hp, hk]
    exact ih
  | case5 links here p rest h hp bytes x hk =>
    rw [List.cons_append, trace, if_neg h, if_neg hp, hk]
    rfl
  | case6 here p rest h hp target hk =>
    rw [List.cons_append, trace, if_neg h, if_neg hp, hk]
    rfl
  | case7 here p rest h hp target hk n ih =>
    rw [List.cons_append, trace, if_neg h, if_neg hp, hk]
    rw [List.append_assoc] at ih
    exact ih
  | case8 links here p rest h hp hk hmade ih =>
    rw [List.cons_append, trace, if_neg h, if_neg hp, hk]
    exact (if_pos hmade).trans ih
  | case9 links here p rest h hp hk hmade =>
    rw [List.cons_append, trace, if_neg h, if_neg hp, hk]
    exact if_neg hmade

private theorem trace_idle {p : String} (h : isReal p = false) (rest : List String) :
    fs.trace made links here (p :: rest) = fs.trace made links here rest := by
  rw [isReal, Bool.not_eq_false'] at h
  rw [trace, if_pos h]

theorem trace_real (parts : List String) :
    fs.trace made links here (real parts) = fs.trace made links here parts := by
  induction parts generalizing links here with
  | nil => rfl
  | cons p rest ih =>
    by_cases h : isReal p = true
    · rw [real, List.filter_cons_of_pos h]
      refine (trace_append [p] (real rest)).trans (.trans ?_ (trace_append [p] rest).symm)
      congr 1
      funext r
      exact ih
    · rw [Bool.not_eq_true] at h
      rw [trace_idle h, ← ih, real, List.filter_cons_of_neg (by simp [h])]
      rfl

theorem kind?_tail (h : fs.kind? here.reverse = some .dir) :
    fs.kind? here.tail.reverse = some .dir := by
  cases here with
  | nil => exact h
  | cons s rest =>
    rw [List.reverse_cons] at h
    exact kind?_above (List.cons_ne_nil s []) (by simp [h])

/-- A trace through what is there ends in a directory. -/
theorem kind?_of_trace {parts : List String} {r : Nat × List String}
    (hroot : fs.kind? [] = some .dir) (h : fs.trace false links here parts = some r)
    (hhere : fs.kind? here.reverse = some .dir) : fs.kind? r.2.reverse = some .dir := by
  fun_induction trace fs false links here parts with
  | case1 links here => cases h; exact hhere
  | case2 links here p rest hidle ih => exact ih h hhere
  | case3 links here rest hidle ih => exact ih h (kind?_tail hhere)
  | case4 links here p rest hidle hp hk ih => exact ih h hk
  | case7 here p rest hidle hp target hk n ih =>
    refine ih h ?_
    split
    · exact hroot
    · exact hhere
  | case8 links here p rest hidle hp hk hmade ih => simp at hmade
  | _ => simp at h

/-- A trace through what is there outlasts changes that leave directories and links as they are. -/
theorem trace_of_kept {parts : List String} {r : Nat × List String}
    (hdirs : ∀ path, fs.kind? path = some .dir → gs.kind? path = some .dir)
    (hlinks : ∀ path target, fs.kind? path = some (.link target) →
      gs.kind? path = some (.link target))
    (h : fs.trace false links here parts = some r) : gs.trace made links here parts = some r := by
  fun_induction trace fs false links here parts with
  | case1 links here => rw [trace, h]
  | case2 links here p rest hidle ih => rw [trace, if_pos hidle, ih h]
  | case3 links here rest hidle ih => rw [trace, if_neg hidle, if_pos rfl, ih h]
  | case4 links here p rest hidle hp hk ih =>
    rw [trace, if_neg hidle, if_neg hp, hdirs _ hk]
    exact ih h
  | case7 here p rest hidle hp target hk n ih =>
    rw [trace, if_neg hidle, if_neg hp, hlinks _ _ hk]
    exact ih h
  | case8 links here p rest hidle hp hk hmade ih => simp at hmade
  | _ => simp at h

/-- What is there need not be made. -/
theorem trace_of_strict {parts : List String} {r : Nat × List String}
    (h : fs.trace false links here parts = some r) : fs.trace true links here parts = some r :=
  trace_of_kept (fun _ hk => hk) (fun _ _ hk => hk) h

/-- A file system with more directories, where nothing was before. -/
def Grown (fs gs : FileSystem) : Prop :=
  ∀ path, gs.kind? path = fs.kind? path ∨ fs.kind? path = none ∧ gs.kind? path = some .dir

theorem Grown.kind? (h : Grown fs gs) {path : List String} {k : Kind}
    (hk : fs.kind? path = some k) : gs.kind? path = some k := by
  rcases h path with hsame | ⟨hnone,-⟩
  · rw [hsame, hk]
  · rw [hnone] at hk
    cases hk

theorem Grown.executableAt (h : Grown fs gs) (path : List String) :
    gs.executableAt path = fs.executableAt path := executableAt_eq (h path)

/-- Making directories does not change where paths lead. -/
theorem Grown.trace (h : Grown fs gs) (parts : List String) :
    gs.trace true links here parts = fs.trace true links here parts := by
  fun_induction FileSystem.trace fs true links here parts with
  | case1 links here => rw [FileSystem.trace]
  | case2 links here p rest hidle ih => rw [FileSystem.trace, if_pos hidle, ih]
  | case3 links here rest hidle ih => rw [FileSystem.trace, if_neg hidle, if_pos rfl, ih]
  | case4 links here p rest hidle hp hk ih =>
    rw [FileSystem.trace, if_neg hidle, if_neg hp, h.kind? hk]
    exact ih
  | case5 links here p rest hidle hp bytes x hk =>
    rw [FileSystem.trace, if_neg hidle, if_neg hp, h.kind? hk]
  | case6 here p rest hidle hp target hk =>
    rw [FileSystem.trace, if_neg hidle, if_neg hp, h.kind? hk]
  | case7 here p rest hidle hp target hk n ih =>
    rw [FileSystem.trace, if_neg hidle, if_neg hp, h.kind? hk]
    exact ih
  | case8 links here p rest hidle hp hk hmade ih =>
    rw [FileSystem.trace, if_neg hidle, if_neg hp]
    rcases h (p :: here).reverse with hsame | ⟨-,hdir⟩
    · rw [hsame, hk]
      exact ih
    · rw [hdir]
      exact ih
  | case9 links here p rest hidle hp hk hmade => exact (hmade rfl).elim

/-- Names below a directory without links are entered one by one. -/
theorem trace_names {parts : List String} {r : Nat × List String}
    (hnames : ∀ p ∈ parts, isName p = true)
    (hlinks : ∀ path target, fs.kind? (here.reverse ++ path) ≠ some (.link target))
    (h : fs.trace made links here parts = some r) : r = (links, parts.reverse ++ here) := by
  induction parts generalizing here with
  | nil =>
    rw [trace] at h
    exact (Option.some.inj h).symm
  | cons p rest ih =>
    obtain ⟨hidle,hup⟩ := Path.not_idle_of_isName (hnames p List.mem_cons_self)
    have hbelow : ∀ path target,
        fs.kind? ((p :: here).reverse ++ path) ≠ some (.link target) := by
      intro path target
      rw [List.reverse_cons, List.append_assoc]
      exact hlinks ([p] ++ path) target
    have henter : fs.trace made links (p :: here) rest = some r := by
      rw [trace, if_neg hidle, if_neg hup] at h
      split at h
      · exact h
      · cases h
      · next target hk =>
        rw [List.reverse_cons] at hk
        exact (hlinks [p] target hk).elim
      · split at h
        · exact h
        · cases h
    have := ih (fun q hq => hnames q (List.mem_cons_of_mem p hq)) hbelow henter
    simpa using this

end DocSnapshot.FileSystem
