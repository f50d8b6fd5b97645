import Mathlib.Data.List.Forall2
import DocSnapshot.Python.Statement

/-! Where a statement stands in a body. A walk through a body meets the statement at every place,
each once and in document order. -/
namespace DocSnapshot.Python

/-- A place in a body: the index of a statement, then, as often as need be, the index of one of its
blocks and that of a statement in there. -/
abbrev Place := List Nat

/-- The place of the statement in one of whose blocks a place lies; none above the body itself. -/
def Place.owner (p : Place) : Place := p.dropLast.dropLast

theorem Place.exists_of_owner {p : Place} (h : p.owner ≠ []) : ∃ j i, p = p.owner ++ [j, i] := by
  have hinner : p.dropLast ≠ [] := by
    intro hnil
    simp [owner, hnil] at h
  have hp : p ≠ [] := by
    rintro rfl
    exact hinner rfl
  refine ⟨p.dropLast.getLast hinner,p.getLast hp,?_⟩
  rw [owner, List.append_cons, List.dropLast_append_getLast, List.dropLast_append_getLast]

/-- Document order: by the first index that differs, a statement before what its blocks hold. -/
def Place.Before (p q : Place) : Prop := List.Lex (· < ·) p q

theorem Place.Before.ne {p q : Place} (h : p.Before q) : p ≠ q := by
  intro heq
  subst heq
  induction p with
  | nil => cases h
  | cons i p ih =>
    cases h with
    | rel hi => exact absurd hi (Nat.lt_irrefl i)
    | cons h => exact ih h

theorem Place.Before.asymm {p q : Place} (h : p.Before q) : ¬q.Before p := List.lt_asymm h

/-- A place before another one is above it, or whatever is below the one comes before whatever is
below the other. -/
theorem Place.Before.above_or_apart {p q : Place} (h : p.Before q) :
    (∃ i r, q = p ++ i :: r) ∨ ∀ r s, Place.Before (p ++ r) (q ++ s) := by
  induction h with
  | @nil i r => exact .inl ⟨i,r,rfl⟩
  | rel hij => exact .inr fun _ _ => .rel hij
  | cons _ ih =>
    rcases ih with ⟨i,r,rfl⟩ | hapart
    · exact .inl ⟨i,r,rfl⟩
    · exact .inr fun r s => .cons (hapart r s)

namespace Stmt

def blocks : Stmt → List (List Stmt)
  | .functionDef _ body => [body]
  | .classDef _ body => [body]
  | .nested blocks => blocks
  | _ => []

mutual
def at? (body : List Stmt) : Place → Option Stmt
  | [] => none
  | i :: p => body[i]?.bind fun s => s.below? p

def below? (s : Stmt) : Place → Option Stmt
  | [] => some s
  | j :: p => s.blocks[j]?.bind fun b => at? b p
end

/-- Whether the entries of a list belong to the places with a property, one to each and in document
order. -/
def Lists {α : Type} (P : Place → Prop) (R : Place → α → Prop) (xs : List α) : Prop :=
  ∃ ps : List Place, ps.Pairwise Place.Before ∧ (∀ p, p ∈ ps ↔ P p) ∧ List.Forall₂ R ps xs

def Finds (look : Place → Option Stmt) (ss : List Stmt) : Prop :=
  Lists (fun p => (look p).isSome) (fun p s => look p = some s) ss

section Indexed

variable {α : Type}

private theorem pairwise_map {ps : List Place} {f : Place → Place} (h : ps.Pairwise Place.Before)
    (hf : ∀ p ∈ ps, ∀ q ∈ ps, p.Before q → Place.Before (f p) (f q)) :
    (ps.map f).Pairwise Place.Before := by
  rw [List.pairwise_map]
  exact h.imp_of_mem fun hp hq hlt => hf _ hp _ hq hlt

private def next : Place → Place
  | [] => []
  | i :: p => (i + 1) :: p

private theorem lists_flatten {P : Nat → Place → Prop} {R : Nat → Place → α → Prop}
    {yss : List (List α)} (h : ∀ i ys, yss[i]? = some ys → Lists (P i) (R i) ys) :
    Lists (fun p => ∃ i q, p = i :: q ∧ i < yss.length ∧ P i q)
      (fun p y => ∃ i q, p = i :: q ∧ R i q y) yss.flatten := by
  induction yss generalizing P R with
  | nil => exact ⟨[],.nil,by simp,.nil⟩
  | cons ys yss ih =>
    -- The places in the first element come first; those in the others are moved up by one index.
    obtain ⟨ps,hsorted,hmem,hrel⟩ := h 0 ys rfl
    obtain ⟨qs,hsorted',hmem',hrel'⟩ := ih fun i ys hi => h (i + 1) ys hi
    have hnil : [] ∉ qs := by simp [hmem']
    refine ⟨ps.map (0 :: ·) ++ qs.map next,?_,fun p => ?_,?_⟩
    · refine List.pairwise_append.mpr ⟨pairwise_map hsorted fun _ _ _ _ hlt => .cons hlt,
        pairwise_map hsorted' fun p hp q hq hlt => ?_,fun p hp q hq => ?_⟩
      · cases hlt with
        | nil => exact absurd hp hnil
        | rel hij => exact .rel (Nat.succ_lt_succ hij)
        | cons hlt => exact .cons hlt
      · obtain ⟨p,-,rfl⟩ := List.mem_map.mp hp
        obtain ⟨q,hqs,rfl⟩ := List.mem_map.mp hq
        cases q with
        | nil => exact absurd hqs hnil
        | cons j q => exact .rel (Nat.succ_pos j)
    · have hnext : p ∈ qs.map next ↔ ∃ i q, i :: q ∈ qs ∧ (i + 1) :: q = p := by
        rw [List.mem_map]
        constructor
        · rintro ⟨q,hq,rfl⟩
          cases q with
          | nil => exact absurd hq hnil
          | cons i q => exact ⟨i,q,hq,rfl⟩
        · rintro ⟨i,q,hq,rfl⟩
          exact ⟨i :: q,hq,rfl⟩
      rw [List.mem_append, hnext]
      cases p with
      | nil => simp
      | cons i p =>
        cases i with
        | zero => simp [hmem]
        | succ i => simp [hmem']
    · refine List.rel_append ?_ ?_
      · rw [List.forall₂_map_left_iff]
        exact hrel.imp fun p y hy => ⟨0,p,rfl,hy⟩
      · rw [List.forall₂_map_left_iff]
        refine hrel'.imp ?_
        rintro _ y ⟨i,q,rfl,hy⟩
        exact ⟨i + 1,q,rfl,hy⟩

/-- Entries belong to places in a list if they belong to places in its elements. -/
theorem lists_indexed {P : Place → Prop} {R : Place → α → Prop} {Q : Nat → Place → Prop}
    {S : Nat → Place → α → Prop} {yss : List (List α)}
    (h : ∀ i ys, yss[i]? = some ys → Lists (Q i) (S i) ys)
    (hP : ∀ p, P p ↔ ∃ i q, p = i :: q ∧ i < yss.length ∧ Q i q)
    (hR : ∀ i q y, S i q y → R (i :: q) y) : Lists P R yss.flatten := by
  obtain ⟨ps,hsorted,hmem,hrel⟩ := lists_flatten h
  refine ⟨ps,hsorted,fun p => (hmem p).trans (hP p).symm,hrel.imp ?_⟩
  rintro _ y ⟨i,q,rfl,hy⟩
  exact hR i q y hy

/-- An entry of its own comes in front of those that belong to places further down. -/
theorem lists_cons {P Q : Place → Prop} {R S : Place → α → Prop} {y : α} {ys : List α}
    (h : Lists Q S ys) (hP : ∀ p, P p ↔ p = [] ∨ Q p) (hnil : ¬Q []) (hself : R [] y)
    (hR : ∀ p z, S p z → R p z) : Lists P R (y :: ys) := by
  obtain ⟨ps,hsorted,hmem,hrel⟩ := h
  refine ⟨[] :: ps,List.pairwise_cons.mpr ⟨fun p hp => ?_,hsorted⟩,fun p => ?_,
    .cons hself (hrel.imp hR)⟩
  · cases p with
    | nil => exact absurd ((hmem []).mp hp) hnil
    | cons i p => exact .nil
  · rw [List.mem_cons, hmem, hP]

end Indexed

section Walk

variable {α : Type} {look : α → Place → Option Stmt}

def indexed (look : α → Place → Option Stmt) (xs : List α) : Place → Option Stmt
  | [] => none
  | i :: p => xs[i]?.bind fun x => look x p

theorem at?_eq (body : List Stmt) : at? body = indexed below? body := by
  funext p
  cases p <;> rfl

theorem below?_cons (s : Stmt) (j : Nat) (p : Place) :
    s.below? (j :: p) = indexed at? s.blocks (j :: p) := rfl

/-- What is found in the elements of a list is found by their indices. -/
theorem finds_indexed {g : α → List Stmt} {xs : List α} (h : ∀ x ∈ xs, Finds (look x) (g x)) :
    Finds (indexed look xs) (xs.flatMap g) := by
  rw [List.flatMap_def]
  refine lists_indexed (Q := fun i q => ∃ x, xs[i]? = some x ∧ (look x q).isSome)
    (S := fun i q s => ∃ x, xs[i]? = some x ∧ look x q = some s) ?_ ?_ ?_
  · intro i ys hi
    rw [List.getElem?_map, Option.map_eq_some_iff] at hi
    obtain ⟨x,hx,rfl⟩ := hi
    simp only [hx, Option.some.injEq, exists_eq_left']
    exact h x (List.mem_of_getElem? hx)
  · intro p
    cases p with
    | nil => simp [indexed]
    | cons i q =>
      cases hx : xs[i]? with
      | none => simp [indexed, hx]
      | some x => simpa [indexed, hx] using fun _ => (List.getElem?_eq_some_iff.mp hx).1
  · rintro i q s ⟨x,hx,hs⟩
    rw [indexed, hx]
    exact hs

private theorem finds_self {s : Stmt} {ss : List Stmt} (h : Finds (indexed at? s.blocks) ss) :
    Finds s.below? (s :: ss) := by
  refine lists_cons h (fun p => ?_) (by simp [indexed]) rfl fun p r hp => ?_
  · cases p with
    | nil => simp [below?]
    | cons j p => simp [below?_cons]
  · cases p with
    | nil => cases hp
    | cons j p => exact hp

theorem walkAll_eq (body : List Stmt) : walkAll body = body.flatMap walk := by
  induction body with
  | nil => rfl
  | cons s rest ih => rw [walkAll, ih, List.flatMap_cons]

theorem walkBlocks_eq (blocks : List (List Stmt)) : walkBlocks blocks = blocks.flatMap walkAll := by
  induction blocks with
  | nil => rfl
  | cons b rest ih => rw [walkBlocks, ih, List.flatMap_cons]

private theorem finds_body {body : List Stmt} (h : ∀ s ∈ body, Finds s.below? s.walk) :
    Finds (at? body) (walkAll body) := by
  rw [at?_eq, walkAll_eq]
  exact finds_indexed h

private theorem finds_blocks {s : Stmt} (h : ∀ b ∈ s.blocks, Finds (at? b) (walkAll b)) :
    Finds s.below? (s :: walkBlocks s.blocks) := by
  rw [walkBlocks_eq]
  exact finds_self (finds_indexed h)

theorem walk_eq (s : Stmt) : s.walk = s :: walkBlocks s.blocks := by
  cases s <;> simp [walk, blocks, walkBlocks]

mutual
private theorem finds_walk : (s : Stmt) → Finds s.below? s.walk
  | .functionDef f body => by
    rw [walk_eq]
    exact finds_blocks (List.forall_mem_singleton.mpr (finds_body (finds_walk_each body)))
  | .classDef c body => by
    rw [walk_eq]
    exact finds_blocks (List.forall_mem_singleton.mpr (finds_body (finds_walk_each body)))
  | .nested blocks => by
    rw [walk_eq]
    exact finds_blocks (finds_walkAll_each blocks)
  | .imports _ | .importsFrom _ _ | .assign _ _ _ | .expr _ | .other => by
    rw [walk_eq]
    exact finds_blocks (List.forall_mem_nil _)

private theorem finds_walk_each : (body : List Stmt) → ∀ s ∈ body, Finds s.below? s.walk
  | [] => List.forall_mem_nil _
  | s :: rest => List.forall_mem_cons.mpr ⟨finds_walk s,finds_walk_each rest⟩

private theorem finds_walkAll_each :
    (blocks : List (List Stmt)) → ∀ b ∈ blocks, Finds (at? b) (walkAll b)
  | [] => List.forall_mem_nil _
  | b :: rest => List.forall_mem_cons.mpr ⟨finds_body (finds_walk_each b),finds_walkAll_each rest⟩
end

/-- A walk through a body meets the statement at every place once, in document order. -/
theorem finds_walkAll (body : List Stmt) : Finds (at? body) (walkAll body) :=
  finds_body (finds_walk_each body)

end Walk

section Entries

variable {α β : Type} {P P' : Place → Prop} {R : Place → α → Prop} {R' : Place → β → Prop}
  {xs : List α}

/-- Entries are picked one by one, and the places they belong to with them. -/
theorem Lists.filterMap (h : Lists P R xs) {pick : α → Option β} (hsub : ∀ p, P' p → P p)
    (hpick : ∀ p x y, P p → R p x → pick x = some y → P' p ∧ R' p y)
    (hdrop : ∀ p x, R p x → pick x = none → ¬P' p) : Lists P' R' (xs.filterMap pick) := by
  classical
  obtain ⟨ps,hsorted,hmem,hrel⟩ := h
  refine ⟨ps.filter (P' ·),hsorted.filter _,fun p => ?_,?_⟩
  · rw [List.mem_filter, hmem, decide_eq_true_eq]
    exact ⟨And.right,fun hp => ⟨hsub p hp,hp⟩⟩
  · have hall : ∀ p ∈ ps, P p := fun p => (hmem p).mp
    clear hsorted hmem
    induction hrel with
    | nil => exact .nil
    | @cons p x ps xs hpx _ ih =>
      rw [List.forall_mem_cons] at hall
      cases hx : pick x with
      | none =>
        rw [List.filterMap_cons_none hx, List.filter_cons_of_neg (by simpa using hdrop p x hpx hx)]
        exact ih hall.2
      | some y =>
        obtain ⟨hp,hy⟩ := hpick p x y hall.1 hpx hx
        rw [List.filterMap_cons_some hx, List.filter_cons_of_pos (by simpa using hp)]
        exact .cons hy (ih hall.2)

theorem Lists.exists_nodup (h : Lists P R xs) :
    ∃ ps : List Place, ps.Nodup ∧ (∀ p, p ∈ ps ↔ P p) ∧ ps.length = xs.length := by
  obtain ⟨ps,hsorted,hmem,hrel⟩ := h
  exact ⟨ps,hsorted.imp Place.Before.ne,hmem,hrel.length_eq⟩

/-- The first entry with a value, in document order. -/
theorem Lists.exists_first (h : Lists P R xs) {f : α → Option β} {y : β}
    (hy : xs.findSome? f = some y) : ∃ p x, P p ∧ R p x ∧ f x = some y ∧
      ∀ q, P q → q.Before p → ∃ z, R q z ∧ f z = none := by
  obtain ⟨ps,hsorted,hmem,hrel⟩ := h
  simp only [← hmem]
  clear hmem
  induction hrel with
  | nil => cases hy
  | @cons p x ps xs hpx _ ih =>
    rw [List.pairwise_cons] at hsorted
    rw [List.findSome?_cons] at hy
    cases hx : f x with
    | some y' =>
      rw [hx] at hy
      refine ⟨p,x,List.mem_cons_self,hpx,hx.trans hy,fun q hq hbefore => ?_⟩
      rcases List.mem_cons.mp hq with rfl | hq
      · exact absurd rfl hbefore.ne
      · exact absurd hbefore (hsorted.1 q hq).asymm
    | none =>
      rw [hx] at hy
      obtain ⟨p',x',hp',hpx',hx',hfirst⟩ := ih hy hsorted.2
      refine ⟨p',x',List.mem_cons_of_mem p hp',hpx',hx',fun q hq hbefore => ?_⟩
      rcases List.mem_cons.mp hq with rfl | hq
      · exact ⟨x,hpx,hx⟩
      · exact hfirst q hq hbefore

/-- Every place with an entry belongs to one of the list. -/
theorem Lists.exists_entry (h : Lists P R xs) {p : Place} (hp : P p) : ∃ x ∈ xs, R p x := by
  obtain ⟨ps,-,hmem,hrel⟩ := h
  have hps := (hmem p).mpr hp
  clear hmem
  induction hrel with
  | nil => cases hps
  | @cons q x ps xs hqx _ ih =>
    rcases List.mem_cons.mp hps with rfl | hps
    · exact ⟨x,List.mem_cons_self,hqx⟩
    · obtain ⟨z,hz,hpz⟩ := ih hps
      exact ⟨z,List.mem_cons_of_mem x hz,hpz⟩

end Entries

section Direct

variable {body : List Stmt} {p q : Place} {s : Stmt}

private theorem path_append (q p : Place) :
    (∀ {body s}, at? body q = some s → at? body (q ++ p) = s.below? p) ∧
      ∀ {r s : Stmt}, r.below? q = some s → r.below? (q ++ p) = s.below? p := by
  -- A path enters bodies and statements in turn, so each step needs what the other one says.
  induction q with
  | nil =>
    constructor
    · intro body s h
      cases h
    · intro r s h
      cases h
      rfl
  | cons i q ih =>
    constructor
    · intro body s h
      obtain ⟨r,hr,hs⟩ := Option.bind_eq_some_iff.mp h
      rw [List.cons_append, at?, hr]
      exact ih.2 hs
    · intro r s h
      obtain ⟨b,hb,hs⟩ := Option.bind_eq_some_iff.mp h
      rw [List.cons_append, below?, hb]
      exact ih.1 hs

theorem at?_append (h : at? body q = some s) (p : Place) : at? body (q ++ p) = s.below? p :=
  (path_append q p).1 h

private theorem before_concat (q : Place) {i j : Nat} (h : i < j) :
    Place.Before (q ++ [i]) (q ++ [j]) := by
  induction q with
  | nil => exact .rel h
  | cons k q ih => exact .cons ih

private theorem lists_block {block : List Stmt} (path : Place)
    (h : ∀ p s, at? body p = some s ∧ p.owner = q ↔ ∃ i, p = path ++ [i] ∧ block[i]? = some s) :
    Lists (fun p => (at? body p).isSome ∧ p.owner = q) (fun p s => at? body p = some s) block := by
  refine ⟨(List.range block.length).map (path ++ [·]),?_,fun p => ?_,?_⟩
  · rw [List.pairwise_map]
    exact List.pairwise_lt_range.imp (before_concat path)
  · simp only [List.mem_map, Option.isSome_iff_exists]
    constructor
    · rintro ⟨i,hi,rfl⟩
      have hfound := (h _ _).mpr ⟨i,rfl,List.getElem?_eq_getElem (List.mem_range.mp hi)⟩
      exact ⟨⟨_,hfound.1⟩,hfound.2⟩
    · rintro ⟨⟨s,hs⟩,howner⟩
      obtain ⟨i,rfl,hi⟩ := (h p s).mp ⟨hs,howner⟩
      exact ⟨i,List.mem_range.mpr (List.getElem?_eq_some_iff.mp hi).1,rfl⟩
  · rw [List.forall₂_iff_get]
    refine ⟨by simp,fun i hi hi' => ?_⟩
    exact ((h _ _).mpr ⟨i,by simp,by simp⟩).1

/-- The statements of a body stand in it directly. -/
theorem lists_module (body : List Stmt) :
    Lists (fun p => (at? body p).isSome ∧ p.owner = []) (fun p s => at? body p = some s) body := by
  refine lists_block [] fun p s => ⟨?_,?_⟩
  · rintro ⟨hs,howner⟩
    rcases p with _ | ⟨i,_ | ⟨j,_ | ⟨k,p⟩⟩⟩
    · cases hs
    · obtain ⟨r,hr,hs⟩ := Option.bind_eq_some_iff.mp hs
      cases hs
      exact ⟨i,rfl,hr⟩
    · obtain ⟨r,-,hs⟩ := Option.bind_eq_some_iff.mp hs
      obtain ⟨b,-,hs⟩ := Option.bind_eq_some_iff.mp hs
      cases hs
    · simp [Place.owner] at howner
  · rintro ⟨i,rfl,hi⟩
    exact ⟨by simp [at?, below?, hi],rfl⟩

/-- The statements of the body of a class stand in it directly. -/
theorem lists_class {c : Class} {block : List Stmt} (h : at? body q = some (.classDef c block)) :
    Lists (fun p => (at? body p).isSome ∧ p.owner = q) (fun p s => at? body p = some s) block := by
  refine lists_block (q ++ [0]) fun p s => ⟨?_,?_⟩
  · rintro ⟨hs,rfl⟩
    have howner : p.owner ≠ [] := by
      intro hnil
      simp [hnil, at?] at h
    obtain ⟨j,i,hp⟩ := Place.exists_of_owner howner
    rw [hp, at?_append h, below?] at hs
    obtain ⟨b,hb,hs⟩ := Option.bind_eq_some_iff.mp hs
    obtain ⟨r,hr,hs⟩ := Option.bind_eq_some_iff.mp hs
    cases hs
    obtain ⟨rfl,rfl⟩ : j = 0 ∧ block = b := by
      simpa [blocks, List.getElem?_singleton] using hb
    exact ⟨i,hp.trans (by simp),hr⟩
  · rintro ⟨i,rfl,hi⟩
    refine ⟨?_,by simp [Place.owner]⟩
    rw [List.append_assoc, at?_append h]
    simp [below?, at?, blocks, hi]

end Direct

end Stmt

end DocSnapshot.Python
