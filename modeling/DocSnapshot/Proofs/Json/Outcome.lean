import DocSnapshot.Proofs.Json.Containers

/-! How reading ends: what a reader refuses whatever follows, and what is true of every value it
answers with. A loop over members ends at the first that is refused, and keeps what each of them
keeps. -/
namespace DocSnapshot.Json.Reader

variable {α β : Type}

/-- A reader refuses a text for a reason, wherever it stands. -/
def Refuses (r : Reader α) (text : List Char) (reason : String) : Prop :=
  ∀ mark, ∃ place, r ⟨text, mark⟩ = .error ⟨reason, place⟩

section Refuses
variable {r : Reader α} {f : α → Reader β} {cs rest text : List Char} {a : α} {reason : String}

theorem Refuses.bind (h : Refuses r text reason) : Refuses (r >>= f) text reason := by
  intro mark
  obtain ⟨place,h⟩ := h mark
  refine ⟨place,?_⟩
  simp only [Bind.bind, StateT.bind, Except.bind, h]

theorem Takes.bind_refuses (hr : Takes r cs rest a) (hf : Refuses (f a) rest reason) :
    Refuses (r >>= f) (cs ++ rest) reason := by
  intro mark
  obtain ⟨middle,hr⟩ := hr mark
  obtain ⟨place,hf⟩ := hf middle
  refine ⟨place,?_⟩
  simp only [Bind.bind, StateT.bind, Except.bind, hr, hf]

/-- The last container is not opened. -/
theorem refuses_enter {depth : Depth} (h : depth ≤ 1) (text : List Char) :
    Refuses (enter depth) text "recursion limit exceeded" := by
  intro mark
  rw [enter, if_pos h]
  exact ⟨_,rfl⟩

theorem Refuses.whole (h : Refuses r text reason) :
    ∃ place, whole r (String.ofList text) = .error ⟨reason, place⟩ := by
  have halone : Refuses (alone r) text reason := h.bind
  obtain ⟨place,hplace⟩ := halone ⟨1, 0⟩
  refine ⟨place,?_⟩
  rw [Reader.whole, Input.ofString, String.toList_ofList, hplace, Except.map]

end Refuses

inductive Stops (read : String → β → Reader β) (reason : String) :
    List (String × List Char) → β → Prop where
  | here {key : String} {body : List Char} {ms : List (String × List Char)} {b : β}
      (refused : ∀ rest, Refuses (read key b) (body ++ rest) reason) :
      Stops read reason ((key, body) :: ms) b
  | later {key : String} {body : List Char} {ms : List (String × List Char)} {b b' : β}
      (first : ∀ {rest}, Ends rest → Takes (read key b) body rest b')
      (next : Stops read reason ms b') : Stops read reason ((key, body) :: ms) b

section Objects
variable {read : String → β → Reader β} {line : Nat → List Char} {ms : List (String × List Char)}
  {reason : String} {b b' : β} {blanks closing rest : List Char}

private theorem refuses_member {first : Bool} {lead tail : List Char} {key : String} {fuel : Nat}
    (hlead : Takes (hasKey first) lead (renderString key ++ tail) true)
    (htail : Refuses (do members read fuel false (← read key b)) tail reason) :
    Refuses (members read (fuel + 1) first b) (lead ++ (renderString key ++ tail)) reason := by
  have hkey : renderString key ++ tail =
      ['"'] ++ (key.toList.flatMap escapeChar ++ ['"'] ++ tail) := by
    simp [renderString]
  refine hlead.bind_refuses ?_
  rw [if_pos rfl, hkey]
  exact (takes_bump '"' _).bind_refuses ((takes_stringRest key _).bind_refuses htail)

private theorem Stops.refuses_value {key : String} {body tail : List Char} {fuel : Nat}
    (h : Stops read reason ((key, body) :: ms) b) (hend : Ends tail)
    (hnext : ∀ {b'}, Stops read reason ms b' → Refuses (members read fuel false b') tail reason) :
    Refuses (do members read fuel false (← read key b)) (body ++ tail) reason := by
  -- Either the value is refused or a later member stops the loop.
  cases h with
  | here refused => exact (refused tail).bind
  | later first next => exact (first hend).bind_refuses (hnext next)

private theorem Stops.refuses_members (hb : Blank blanks) (hc : Blank closing)
    (h : Stops read reason ms b) {fuel : Nat} (hfuel : ms.length < fuel) :
    Refuses (members read fuel false b)
      (commaTail blanks (ms.map memberText) ++ closing ++ '\x7d' :: rest) reason := by
  induction ms generalizing b fuel with
  | nil => cases h
  | cons m ms ih =>
    obtain ⟨key,body⟩ := m
    cases fuel with
    | zero => simp at hfuel
    | succ fuel =>
      have hsplit : commaTail blanks (((key, body) :: ms).map memberText) ++ closing ++
          '\x7d' :: rest = ',' :: blanks ++ (renderString key ++ (body ++
            (commaTail blanks (ms.map memberText) ++ closing ++ '\x7d' :: rest))) := by
        simp [commaTail, memberText]
      rw [hsplit]
      refine refuses_member (takes_nextKey key hb) ?_
      exact h.refuses_value (ends_commaTail hc (.inr rfl)) fun hnext =>
        ih hnext (Nat.lt_of_succ_lt_succ hfuel)

private theorem Stops.refuses_all (h : Stops read reason ms b) (d : Nat)
    (hline : ∀ d, Blank (line d)) {fuel : Nat} (hfuel : ms.length < fuel) :
    Refuses (members read fuel true b) (between line d (ms.map memberText) ++ '\x7d' :: rest)
      reason := by
  cases ms with
  | nil => cases h
  | cons m ms =>
    obtain ⟨key,body⟩ := m
    cases fuel with
    | zero => simp at hfuel
    | succ fuel =>
      have hsplit : between line d (((key, body) :: ms).map memberText) ++ '\x7d' :: rest =
          line (d + 1) ++ (renderString key ++ (body ++
            (commaTail (line (d + 1)) (ms.map memberText) ++ line d ++ '\x7d' :: rest))) := by
        simp [between, memberText]
      rw [hsplit]
      refine refuses_member (takes_firstKey key (hline (d + 1))) ?_
      exact h.refuses_value (ends_commaTail (hline d) (.inr rfl)) fun hnext =>
        hnext.refuses_members (hline (d + 1)) (hline d) (Nat.lt_of_succ_lt_succ hfuel)

/-- An object behind its opening brace is refused with the first of its members that is. -/
theorem Stops.refuses_rest (h : Stops read reason ms b) (d : Nat) (hline : ∀ d, Blank (line d))
    {f : β → Reader α} :
    Refuses (do
      let b ← members read (← remaining) true b
      closeObject
      f b) (between line d (ms.map memberText) ++ '\x7d' :: rest) reason := by
  have hfuel := length_between_lt line d (ms.map memberText) '\x7d' rest
  rw [List.length_map] at hfuel
  exact (takes_remaining _).bind_refuses (h.refuses_all d hline hfuel).bind

end Objects

def Yields (r : Reader α) (P : α → Prop) : Prop := ∀ i a after, r i = .ok (a, after) → P a

section Yields
variable {r : Reader α} {f : α → Reader β} {P : α → Prop} {Q : β → Prop}

theorem yields_pure {a : α} (h : P a) : Yields (pure a) P := by
  rintro i _ after ⟨⟩
  exact h

theorem yields_fail (reason : String) : Yields (fail reason) P := by
  rintro i a after ⟨⟩

theorem Yields.bind (hr : Yields r P) (hf : ∀ a, P a → Yields (f a) Q) : Yields (r >>= f) Q := by
  intro i b after h
  simp only [Bind.bind, StateT.bind, Except.bind] at h
  split at h
  · cases h
  · next p hp => exact hf p.1 (hr i p.1 p.2 hp) p.2 b after h

/-- A step of which nothing is known. -/
theorem Yields.next (hf : ∀ a, Yields (f a) Q) : Yields (r >>= f) Q :=
  Yields.bind (P := fun _ => True) (fun _ _ _ _ => trivial) fun a _ => hf a

theorem yields_failClosing (close : Char) (reason : String) :
    Yields (failClosing close reason) P := by
  refine Yields.next fun next => ?_
  split
  · exact Yields.next fun _ => yields_fail reason
  · exact yields_fail reason

theorem yields_mismatch (expected : String) : Yields (mismatch expected) P :=
  Yields.next fun _ => yields_fail _

/-- What every member keeps is kept by all. -/
theorem yields_members {read : String → β → Reader β}
    (hread : ∀ key b, Q b → Yields (read key b) Q) (fuel : Nat) (first : Bool) {b : β}
    (hb : Q b) : Yields (members read fuel first b) Q := by
  induction fuel generalizing first b with
  | zero => exact yields_pure hb
  | succ fuel ih =>
    refine Yields.next fun more => ?_
    split
    · refine Yields.next fun _ => Yields.next fun key => ?_
      exact (hread key b hb).bind fun b' hb' => ih false hb'
    · exact yields_pure hb

theorem Yields.whole (h : Yields r P) {text : String} {a : α} (ha : whole r text = .ok a) :
    P a := by
  rw [Reader.whole] at ha
  have halone : Yields (alone r) P := by
    refine h.bind fun a hp => Yields.next fun next => ?_
    cases next with
    | none => exact yields_pure hp
    | some c =>
      rintro i b after ⟨⟩
  cases hread : alone r (Input.ofString text) with
  | error e =>
    rw [hread] at ha
    cases ha
  | ok p =>
    rw [hread] at ha
    cases ha
    exact halone _ p.1 p.2 hread

end Yields

end DocSnapshot.Json.Reader
