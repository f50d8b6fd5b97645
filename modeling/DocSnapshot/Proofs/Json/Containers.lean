import DocSnapshot.Proofs.Json.Scalars

/-! Lists, objects and records between their brackets. The loops over items and members take as many
as there are, since the fuel they get is more than the number of commas left. -/
namespace DocSnapshot.Json.Reader

variable {α β : Type}

def commaTail (blanks : List Char) (items : List (List Char)) : List Char :=
  items.flatMap fun text => ',' :: (blanks ++ text)

def between (line : Nat → List Char) (depth : Nat) : List (List Char) → List Char
  | [] => []
  | text :: texts =>
    line (depth + 1) ++ (text ++ (commaTail (line (depth + 1)) texts ++ line depth))

theorem length_between_lt (line : Nat → List Char) (d : Nat) (texts : List (List Char))
    (c : Char) (rest : List Char) :
    texts.length < (between line d texts ++ c :: rest).length + 1 := by
  have htail : ∀ (blanks : List Char) (texts : List (List Char)),
      texts.length ≤ (commaTail blanks texts).length := by
    intro blanks texts
    induction texts with
    | nil => simp [commaTail]
    | cons text texts ih =>
      simp only [commaTail, List.flatMap_cons, List.length_append, List.length_cons] at ih ⊢
      omega
  cases texts with
  | nil => simp
  | cons text texts =>
    have h := htail (line (d + 1)) texts
    simp only [between, List.length_append, List.length_cons]
    omega

section Lists
variable {read : Reader α} {line : Nat → List Char} {texts : List (List Char)} {values : List α}
  {blanks closing rest : List Char}

private theorem takes_closeList (rest : List Char) : Takes closeList [']'] rest () := by
  refine (takes_peekValue blank_nil (noBlankFirst_cons rfl)).look ?_
  exact takes_bump ']' rest

private theorem takes_noItem (first : Bool) (hc : Blank closing) :
    Takes (hasItem first) closing (']' :: rest) false := by
  refine (takes_peekValue hc (noBlankFirst_cons rfl)).last ?_
  exact takes_pure _ _

private theorem takes_firstItem {text : List Char} {a : α} (h : Reads read text a)
    (hb : Blank blanks) : Takes (hasItem true) blanks (text ++ rest) true := by
  refine (takes_peekValue hb (h.noBlankFirst rest)).last ?_
  obtain ⟨c,cs,rfl,-,hc⟩ := h.starts
  simp only [List.cons_append, List.head?_cons, if_true]
  exact takes_pure _ _

private theorem takes_nextItem {text : List Char} {a : α} (h : Reads read text a)
    (hb : Blank blanks) : Takes (hasItem false) (',' :: blanks) (text ++ rest) true := by
  refine (takes_peekValue blank_nil (noBlankFirst_cons rfl)).look ?_
  refine (takes_bump ',' _).bind ?_
  refine (takes_peekValue hb (h.noBlankFirst rest)).last ?_
  obtain ⟨c,cs,rfl,-,hc⟩ := h.starts
  simp only [List.cons_append, List.head?_cons]
  exact takes_pure _ _

/-- Behind a value comes the comma of the next or the closing bracket. -/
theorem ends_commaTail (hc : Blank closing) {c : Char} (hclose : c = ']' ∨ c = '\x7d') :
    Ends (commaTail blanks texts ++ closing ++ c :: rest) := by
  intro d hd
  cases texts with
  | cons text texts =>
    obtain rfl : ',' = d := by simpa [commaTail] using hd
    exact .inl rfl
  | nil =>
    cases closing with
    | nil =>
      obtain rfl : c = d := by simpa [commaTail] using hd
      rcases hclose with rfl | rfl
      · exact .inr (.inl rfl)
      · exact .inr (.inr (.inl rfl))
    | cons b closing =>
      obtain rfl : b = d := by simpa [commaTail] using hd
      exact .inr (.inr (.inr (hc b List.mem_cons_self)))

private theorem takes_item {first : Bool} {lead text tail : List Char} {a : α} {fuel : Nat}
    (hlead : Takes (hasItem first) lead (text ++ tail ++ rest) true)
    (hread : Takes read text (tail ++ rest) a)
    (htail : Takes (items read fuel false) tail rest values) :
    Takes (items read (fuel + 1) first) (lead ++ (text ++ tail)) rest (a :: values) :=
  hlead.bind (hread.bind (htail.last (takes_pure _ _)))

private theorem takes_items (hb : Blank blanks) (hc : Blank closing)
    (h : List.Forall₂ (Reads read) texts values) {fuel : Nat} (hfuel : texts.length < fuel) :
    Takes (items read fuel false) (commaTail blanks texts ++ closing) (']' :: rest) values := by
  induction h generalizing fuel with
  | nil =>
    cases fuel with
    | zero => simp at hfuel
    | succ fuel => exact (takes_noItem false hc).last (takes_pure _ _)
  | @cons text value texts values hread _ ih =>
    cases fuel with
    | zero => simp at hfuel
    | succ fuel =>
      have hend : Ends (commaTail blanks texts ++ closing ++ ']' :: rest) :=
        ends_commaTail hc (.inl rfl)
      have hsplit : commaTail blanks (text :: texts) ++ closing =
          ',' :: blanks ++ (text ++ (commaTail blanks texts ++ closing)) := by
        simp [commaTail]
      rw [hsplit]
      refine takes_item ?_ (hread.takes blank_nil hend) (ih (Nat.lt_of_succ_lt_succ hfuel))
      rw [List.append_assoc]
      exact takes_nextItem hread hb

private theorem takes_allItems (d : Nat) (hline : ∀ d, Blank (line d))
    (h : List.Forall₂ (Reads read) texts values) {fuel : Nat} (hfuel : texts.length < fuel) :
    Takes (items read fuel true) (between line d texts) (']' :: rest) values := by
  cases fuel with
  | zero => simp at hfuel
  | succ fuel =>
    cases h with
    | nil => exact (takes_noItem true blank_nil).last (takes_pure _ _)
    | @cons text value texts values hread h =>
      have hend : Ends (commaTail (line (d + 1)) texts ++ line d ++ ']' :: rest) :=
        ends_commaTail (hline d) (.inl rfl)
      refine takes_item ?_ (hread.takes blank_nil hend)
        (takes_items (hline (d + 1)) (hline d) h (Nat.lt_of_succ_lt_succ hfuel))
      rw [List.append_assoc]
      exact takes_firstItem hread (hline (d + 1))

/-- A list behind its opening bracket. -/
theorem takes_listRest (d : Nat) (hline : ∀ d, Blank (line d))
    (h : List.Forall₂ (Reads read) texts values) {f : List α → Reader β} {b : β}
    (hf : Takes (f values) [] rest b) :
    Takes (do
      let xs ← items read (← remaining) true
      closeList
      f xs) (between line d texts ++ [']']) rest b := by
  have hfuel := length_between_lt line d texts ']' rest
  refine (takes_remaining _).look ?_
  exact (takes_allItems d hline h (by simpa using hfuel)).bind ((takes_closeList _).last hf)

theorem Reads.list {depth : Depth} {expected : String} {readAt : Depth → Reader α} (d : Nat)
    (hline : ∀ d, Blank (line d)) (hdepth : 1 < depth)
    (h : List.Forall₂ (Reads (readAt (depth - 1))) texts values) :
    Reads (list depth expected readAt) ('[' :: (between line d texts ++ [']'])) values := by
  refine Reads.of_first rfl (by decide) fun _ => ?_
  rw [if_pos rfl]
  exact (takes_enter hdepth '[' _).bind (takes_listRest d hline h (takes_pure _ _))

end Lists

def memberText (m : String × List Char) : List Char := renderString m.1 ++ m.2

inductive Steps (read : String → β → Reader β) : List (String × List Char) → β → β → Prop where
  | nil (b : β) : Steps read [] b b
  | cons {key : String} {body : List Char} {ms : List (String × List Char)} {b b' b'' : β}
      (first : ∀ {rest}, Ends rest → Takes (read key b) body rest b')
      (next : Steps read ms b' b'') : Steps read ((key, body) :: ms) b b''

section Objects
variable {read : String → β → Reader β} {line : Nat → List Char} {ms : List (String × List Char)}
  {b b' : β} {blanks closing rest : List Char}

theorem Steps.append {ms' : List (String × List Char)} {b'' : β} (h : Steps read ms b b')
    (h' : Steps read ms' b' b'') : Steps read (ms ++ ms') b b'' := by
  induction h with
  | nil => exact h'
  | cons first _ ih => exact .cons first (ih h')

private theorem takes_closeObject (rest : List Char) : Takes closeObject ['\x7d'] rest () := by
  refine (takes_peekValue blank_nil (noBlankFirst_cons rfl)).look ?_
  exact takes_bump '\x7d' rest

private theorem takes_noKey (first : Bool) (hc : Blank closing) :
    Takes (hasKey first) closing ('\x7d' :: rest) false := by
  refine (takes_peekValue hc (noBlankFirst_cons rfl)).last ?_
  exact takes_pure _ _

theorem takes_firstKey (key : String) (hb : Blank blanks) :
    Takes (hasKey true) blanks (renderString key ++ rest) true := by
  refine (takes_peekValue hb (noBlankFirst_cons rfl)).last ?_
  exact takes_pure _ _

theorem takes_nextKey (key : String) (hb : Blank blanks) :
    Takes (hasKey false) (',' :: blanks) (renderString key ++ rest) true := by
  refine (takes_peekValue blank_nil (noBlankFirst_cons rfl)).look ?_
  refine (takes_bump ',' _).bind ?_
  refine (takes_peekValue hb (noBlankFirst_cons rfl)).last ?_
  exact takes_pure _ _

private theorem takes_member {first : Bool} {lead body tail : List Char} {key : String} {fuel : Nat}
    {b'' : β} (hlead : Takes (hasKey first) lead (renderString key ++ body ++ tail ++ rest) true)
    (hread : Takes (read key b) body (tail ++ rest) b')
    (htail : Takes (members read fuel false b') tail rest b'') :
    Takes (members read (fuel + 1) first b) (lead ++ (renderString key ++ body ++ tail)) rest
      b'' := by
  have hsplit : renderString key ++ body ++ tail =
      ['"'] ++ (key.toList.flatMap escapeChar ++ ['"'] ++ (body ++ tail)) := by
    simp [renderString]
  refine hlead.bind ?_
  rw [if_pos rfl, hsplit]
  exact (takes_bump '"' _).bind ((takes_stringRest key _).bind (hread.bind htail))

private theorem takes_members (hb : Blank blanks) (hc : Blank closing)
    (h : Steps read ms b b') {fuel : Nat} (hfuel : ms.length < fuel) :
    Takes (members read fuel false b) (commaTail blanks (ms.map memberText) ++ closing)
      ('\x7d' :: rest) b' := by
  induction h generalizing fuel with
  | nil =>
    cases fuel with
    | zero => simp at hfuel
    | succ fuel => exact (takes_noKey false hc).last (takes_pure _ _)
  | @cons key body ms _ _ _ hread _ ih =>
    cases fuel with
    | zero => simp at hfuel
    | succ fuel =>
      have hend : Ends (commaTail blanks (ms.map memberText) ++ closing ++ '\x7d' :: rest) :=
        ends_commaTail hc (.inr rfl)
      have hsplit : commaTail blanks (((key, body) :: ms).map memberText) ++ closing =
          ',' :: blanks ++ (renderString key ++ body ++
            (commaTail blanks (ms.map memberText) ++ closing)) := by
        simp [commaTail, memberText]
      rw [hsplit]
      refine takes_member ?_ (hread hend) (ih (Nat.lt_of_succ_lt_succ hfuel))
      rw [List.append_assoc, List.append_assoc]
      exact takes_nextKey key hb

/-- The members of an object are read in turn, as long as there is fuel. -/
theorem Steps.takes (h : Steps read ms b b') (d : Nat) (hline : ∀ d, Blank (line d)) {fuel : Nat}
    (hfuel : (ms.map memberText).length < fuel) :
    Takes (members read fuel true b) (between line d (ms.map memberText)) ('\x7d' :: rest) b' := by
  rw [List.length_map] at hfuel
  cases fuel with
  | zero => simp at hfuel
  | succ fuel =>
    cases h with
    | nil => exact (takes_noKey true blank_nil).last (takes_pure _ _)
    | @cons key body ms _ _ _ hread h =>
      have hend : Ends (commaTail (line (d + 1)) (ms.map memberText) ++ line d ++ '\x7d' :: rest) :=
        ends_commaTail (hline d) (.inr rfl)
      refine takes_member ?_ (hread hend)
        (takes_members (hline (d + 1)) (hline d) h (Nat.lt_of_succ_lt_succ hfuel))
      rw [List.append_assoc, List.append_assoc]
      exact takes_firstKey key (hline (d + 1))

/-- An object behind its opening brace. -/
theorem Steps.takes_rest (h : Steps read ms b b') (d : Nat) (hline : ∀ d, Blank (line d))
    {f : β → Reader α} {a : α} (hf : Takes (f b') [] rest a) :
    Takes (do
      let b ← members read (← remaining) true b
      closeObject
      f b) (between line d (ms.map memberText) ++ ['\x7d']) rest a := by
  have hfuel := length_between_lt line d (ms.map memberText) '\x7d' rest
  refine (takes_remaining _).look ?_
  exact (h.takes d hline (by simpa using hfuel)).bind ((takes_closeObject _).last hf)

end Objects

section Records
variable {fields : List (FieldReader β)} {line : Nat → List Char} {ms : List (String × List Char)}
  {depth : Depth} {b b' : β}

/-- The values of the fields of a record, each behind its colon, and what storing them makes of a
value. -/
inductive Filled (depth : Depth) :
    List (FieldReader β) → List (String × List Char) → β → β → Prop where
  | nil (b : β) : Filled depth [] [] b b
  | cons {f : FieldReader β} {fs : List (FieldReader β)} {gap text : List Char}
      {ms : List (String × List Char)} {store : β → β} {b b' : β} (blank : Blank gap)
      (first : Reads (f.read depth) text store) (next : Filled depth fs ms (store b) b') :
      Filled depth (f :: fs) ((f.name, ':' :: (gap ++ text)) :: ms) b b'

private theorem find?_name (hnodup : (fields.map (·.name)).Nodup) {f : FieldReader β}
    (hf : f ∈ fields) : fields.find? (·.name = f.name) = some f := by
  induction fields with
  | nil => simp at hf
  | cons g fields ih =>
    rw [List.map_cons, List.nodup_cons] at hnodup
    rcases List.mem_cons.1 hf with rfl | hf
    · simp
    · have hne : g.name ≠ f.name := by
        intro heq
        exact hnodup.1 (heq ▸ List.mem_map_of_mem hf)
      simp [hne, ih hnodup.2 hf]

private theorem Filled.steps {todo : List (FieldReader β)} (h : Filled depth todo ms b b')
    (hfind : ∀ f ∈ todo, fields.find? (·.name = f.name) = some f)
    (hnodup : (todo.map (·.name)).Nodup) (seen : List String)
    (hseen : ∀ f ∈ todo, f.name ∉ seen) : Steps (fieldMember fields depth) ms (b, seen)
      (b', (todo.map (·.name)).reverse ++ seen) := by
  induction h generalizing seen with
  | nil => exact .nil _
  | @cons f todo gap text ms store b b' hgap hread _ ih =>
    rw [List.map_cons, List.nodup_cons] at hnodup
    have hfresh : ∀ g ∈ todo, g.name ∉ f.name :: seen := by
      intro g hg
      have hne : g.name ≠ f.name := by
        intro heq
        exact hnodup.1 (heq ▸ List.mem_map_of_mem hg)
      simp [hne, hseen g (List.mem_cons_of_mem f hg)]
    have hnext := ih (fun g hg => hfind g (List.mem_cons_of_mem f hg)) hnodup.2 _ hfresh
    rw [List.map_cons, List.reverse_cons, List.append_assoc, List.singleton_append]
    refine .cons (fun he => ?_) hnext
    have hnew : ¬seen.contains f.name = true := by
      simpa using hseen f List.mem_cons_self
    rw [fieldMember, hfind f List.mem_cons_self]
    simp only [if_neg hnew]
    exact (takes_colon _).bind ((hread.takes hgap he).last (takes_pure _ _))

/-- A record is read from an object with all its fields. -/
theorem Filled.reads (h : Filled (depth - 1) fields ms b b') (hnodup : (fields.map (·.name)).Nodup)
    (hdepth : 1 < depth) (expected : String) (d : Nat) (hline : ∀ d, Blank (line d)) :
    Reads (record depth expected fields b)
      ('\x7b' :: (between line d (ms.map memberText) ++ ['\x7d'])) b' := by
  have hsteps := h.steps (fun f hf => find?_name hnodup hf) hnodup [] (by simp)
  have hall : missing? fields ((fields.map (·.name)).reverse ++ []) = none := by
    rw [missing?, Option.map_eq_none_iff, List.find?_eq_none]
    intro f hf
    have hseen : f.name ∈ fields.map (·.name) := List.mem_map_of_mem hf
    simp [hseen, -List.mem_map]
  refine Reads.of_first rfl (by decide) fun {rest} _ => ?_
  have hfuel := length_between_lt line d (ms.map memberText) '\x7d' rest
  have hmembers : Takes (fieldMembers fields (depth - 1) b) (between line d (ms.map memberText))
      (['\x7d'] ++ rest) (b', (fields.map (·.name)).reverse ++ []) :=
    (takes_remaining _).look (hsteps.takes d hline hfuel)
  refine (takes_enter hdepth '\x7b' _).bind (hmembers.bind ((takes_closeObject _).last ?_))
  simp only [hall]
  exact takes_pure _ _

end Records

/-- A value whose text is the whole input is read. -/
theorem Reads.whole {r : Reader α} {text : List Char} {a : α} (h : Reads r text a) :
    whole r (String.ofList text) = .ok a := by
  have hends : Ends [] := by simp [Ends]
  have hblank : NoBlankFirst [] := by simp [NoBlankFirst]
  have halone : Takes (alone r) text [] a := by
    refine (h.takes blank_nil hends).last ?_
    refine (takes_peekValue blank_nil hblank).look ?_
    exact takes_pure a []
  obtain ⟨after,htakes⟩ := halone ⟨1, 0⟩
  rw [List.append_nil] at htakes
  rw [Reader.whole, Input.ofString, String.toList_ofList, htakes, Except.map]

end DocSnapshot.Json.Reader
