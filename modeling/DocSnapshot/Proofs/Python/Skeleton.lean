import DocSnapshot.Proofs.Python.Quotation
import DocSnapshot.Proofs.Python.Traversal

/-! What a dump says of a tree. The dump of a node is the text of its skeleton, which can be cut in
one way only: kinds and field names hold none of the marks between them, and a quoted text ends at
its own mark. -/
namespace DocSnapshot.Python
open DocSnapshot.Text (quoted)
open DocSnapshot.Text.Quoted (markFor escape encode)
open StringLiteral (isQuote)

mutual
inductive Skeleton where
  | leaf (kind text : String)
  | branch (kind : String) (entries : List SkeletonEntry)

/-- An entry of a shape: a part in its role, or the text of another child that has a role. -/
inductive SkeletonEntry where
  | part (field : Option String) (skeleton : Skeleton)
  | mark (field text : String)
end

namespace Node

mutual
def skeleton : Node → Skeleton
  | .mk kind _ _ text _ _ children =>
    match entries children with
    | [] => .leaf kind text
    | es => .branch kind es

def entries : List Node → List SkeletonEntry
  | [] => []
  | c :: rest =>
    if c.isPart then .part c.field (skeleton c) :: entries rest
    else match c.field with
      | some f => .mark f c.text :: entries rest
      | none => entries rest
end

def isMark (c : Char) : Bool := ['(', ')', '=', '\'', '"'].contains c

/-- Whether a kind or field name is a word: it holds none of the marks of a dump. Letters and
underscores are no marks. -/
def isUnmarked (s : String) : Bool := s.toList.all (!isMark ·)

/-- Whether the kinds of the named nodes of a tree and the names of its fields are words. -/
def isSpelled (n : Node) : Bool :=
  n.preorder.all fun c => (!c.named || isUnmarked c.kind) && c.field.all isUnmarked

end Node

open Python.Node (isMark isUnmarked)

mutual
def Skeleton.write : Skeleton → List Char
  | .leaf kind text => kind.toList ++ '(' :: ((quoted text).toList ++ [')'])
  | .branch kind entries => kind.toList ++ '(' :: (SkeletonEntry.writeAll entries ++ [')'])

def SkeletonEntry.write : SkeletonEntry → List Char
  | .part none s => s.write
  | .part (some f) s => f.toList ++ '=' :: s.write
  | .mark f text => f.toList ++ '=' :: (quoted text).toList

def SkeletonEntry.writeAll : List SkeletonEntry → List Char
  | [] => []
  | e :: rest => e.write ++ SkeletonEntry.writeRest rest

def SkeletonEntry.writeRest : List SkeletonEntry → List Char
  | [] => []
  | e :: rest => ',' :: ' ' :: (e.write ++ SkeletonEntry.writeRest rest)
end

mutual
def Skeleton.Spelled : Skeleton → Prop
  | .leaf kind _ => isUnmarked kind = true
  | .branch kind entries => isUnmarked kind = true ∧ SkeletonEntry.SpelledAll entries

def SkeletonEntry.Spelled : SkeletonEntry → Prop
  | .part field s => field.all isUnmarked = true ∧ s.Spelled
  | .mark field _ => isUnmarked field = true

def SkeletonEntry.SpelledAll : List SkeletonEntry → Prop
  | [] => True
  | e :: rest => e.Spelled ∧ SkeletonEntry.SpelledAll rest
end

namespace Node

private theorem writeAll_eq (es : List SkeletonEntry) :
    SkeletonEntry.writeAll es = [',', ' '].intercalate (es.map SkeletonEntry.write) := by
  cases es with
  | nil => rfl
  | cons e es =>
    rw [SkeletonEntry.writeAll]
    induction es generalizing e with
    | nil => simp [SkeletonEntry.writeRest, List.intercalate]
    | cons next rest ih =>
      rw [SkeletonEntry.writeRest, ih next]
      simp [List.intercalate]

mutual
private theorem toList_dump : (n : Node) → n.dump.toList = n.skeleton.write
  | .mk kind named field text row column children => by
    have hparts := toList_dumpParts children
    rw [dump, skeleton]
    cases hentries : entries children with
    | nil =>
      rw [hentries, List.map_nil, List.map_eq_nil_iff] at hparts
      simp [hparts, Skeleton.write]
    | cons e es =>
      rw [hentries] at hparts
      have hne : dumpParts children ≠ [] := by
        rintro hnil
        simp [hnil] at hparts
      obtain ⟨p,ps,hps⟩ := List.exists_cons_of_ne_nil hne
      rw [hps] at hparts ⊢
      simp [Skeleton.write, writeAll_eq, String.toList_intercalate, hparts]

private theorem toList_dumpParts : (cs : List Node) →
    (dumpParts cs).map String.toList = (entries cs).map SkeletonEntry.write
  | [] => rfl
  | c :: rest => by
    have hrest := toList_dumpParts rest
    have hc := toList_dump c
    rw [dumpParts, entries]
    split
    · cases c.field <;> simp [SkeletonEntry.write, hrest, hc]
    · cases c.field <;> simp [SkeletonEntry.write, hrest]
end

end Node

section Uniqueness

variable {r r' : List Char}

private theorem word_inj {k k' : String} {c c' : Char} (hk : isUnmarked k = true)
    (hk' : isUnmarked k' = true) (hc : isMark c = true) (hc' : isMark c' = true)
    (h : k.toList ++ c :: r = k'.toList ++ c' :: r') : k = k' ∧ c = c' ∧ r = r' := by
  -- A word ends at the first mark behind it.
  have hfront {s : String} {d : Char} {t : List Char} (hs : isUnmarked s = true)
      (hd : isMark d = true) : (s.toList ++ d :: t).takeWhile (!isMark ·) = s.toList ∧
        (s.toList ++ d :: t).dropWhile (!isMark ·) = d :: t := by
    have hall : ∀ x ∈ s.toList, (!isMark x) = true := List.all_eq_true.mp hs
    rw [List.takeWhile_append_of_pos hall, List.dropWhile_append_of_pos hall]
    simp [hd]
  have htake := congrArg (List.takeWhile (!isMark ·)) h
  have hdrop := congrArg (List.dropWhile (!isMark ·)) h
  rw [(hfront hk hc).1, (hfront hk' hc').1] at htake
  rw [(hfront hk hc).2, (hfront hk' hc').2] at hdrop
  exact ⟨String.toList_inj.mp htake,List.cons.inj hdrop⟩

private theorem quoted_inj {s t : String} (h : (quoted s).toList ++ r = (quoted t).toList ++ r') :
    s = t ∧ r = r' := by
  -- A quoted text ends at its own closing mark.
  have hlist (s : String) (r : List Char) : (quoted s).toList ++ r =
      markFor s.toList :: (s.toList.flatMap (escape (markFor s.toList)) ++
        markFor s.toList :: r) := by
    simp [quoted, encode]
  have hend (s : String) (r : List Char) := StringLiteral.afterMark?_escapes
    (StringLiteral.isQuote_markFor s.toList) s.toList r
  have hbody := h
  rw [hlist s, hlist t] at hbody
  obtain ⟨hmark,hbody⟩ := List.cons.inj hbody
  have hrest : some r = some r' := by rw [← hend s r, ← hend t r', hbody, hmark]
  obtain rfl := Option.some.inj hrest
  have hparse := StringLiteral.parse?_quoted s
  rw [String.toList_inj.mp (List.append_cancel_right h), StringLiteral.parse?_quoted t] at hparse
  simp at hparse
  exact ⟨hparse.symm,rfl⟩

private theorem word_ne_quoted {k : String} {c : Char} (hk : isUnmarked k = true)
    (hquote : isQuote c = false) (text : String) :
    k.toList ++ c :: r ≠ (quoted text).toList ++ r' := by
  have hmark := StringLiteral.isQuote_markFor text.toList
  intro heq
  cases hlist : k.toList with
  | nil =>
    rw [hlist, quoted, String.toList_ofList, encode] at heq
    rw [(List.cons.inj heq).1, hmark] at hquote
    cases hquote
  | cons d ds =>
    rw [hlist, quoted, String.toList_ofList, encode] at heq
    have hd : isMark d = false := by
      simpa using List.all_eq_true.mp hk d (by simp [hlist])
    rw [(List.cons.inj heq).1] at hd
    simp only [isQuote, Bool.or_eq_true, decide_eq_true_eq] at hmark
    rcases hmark with h | h <;> rw [h] at hd <;> simp [isMark] at hd

private theorem Skeleton.exists_kind {s : Skeleton} (h : s.Spelled) :
    ∃ k body, isUnmarked k = true ∧ s.write = k.toList ++ '(' :: body := by
  cases s with
  | leaf kind text => exact ⟨kind,_,h,rfl⟩
  | branch kind entries => exact ⟨kind,_,h.1,rfl⟩

private theorem SkeletonEntry.exists_word {e : SkeletonEntry} (h : e.Spelled) :
    ∃ k c body, isUnmarked k = true ∧ (c = '(' ∨ c = '=') ∧ e.write = k.toList ++ c :: body := by
  cases e with
  | part field s =>
    cases field with
    | none =>
      obtain ⟨k,body,hk,heq⟩ := Skeleton.exists_kind h.2
      exact ⟨k,'(',body,hk,.inl rfl,heq⟩
    | some f => exact ⟨f,'=',_,by simpa using h.1,.inr rfl,rfl⟩
  | mark f text => exact ⟨f,'=',_,h,.inr rfl,rfl⟩

private theorem SkeletonEntry.writeAll_ne_quoted {es : List SkeletonEntry} (h : SpelledAll es)
    (text : String) : writeAll es ++ ')' :: r ≠ (quoted text).toList ++ r' := by
  cases es with
  | nil => exact word_ne_quoted (k := "") rfl rfl text
  | cons e rest =>
    obtain ⟨k,c,body,hk,hc,heq⟩ := exists_word h.1
    rw [writeAll, heq, List.append_assoc, List.append_assoc, List.cons_append]
    refine word_ne_quoted hk ?_ text
    rcases hc with rfl | rfl <;> rfl

private theorem Skeleton.write_ne_quoted {s : Skeleton} (h : s.Spelled) (text : String) :
    s.write ++ r ≠ (quoted text).toList ++ r' := by
  obtain ⟨k,body,hk,heq⟩ := exists_kind h
  rw [heq, List.append_assoc, List.cons_append]
  exact word_ne_quoted hk rfl text

private theorem Skeleton.write_ne_field {s : Skeleton} (h : s.Spelled) {f : String}
    (hf : isUnmarked f = true) : s.write ++ r ≠ f.toList ++ '=' :: r' := by
  obtain ⟨k,body,hk,heq⟩ := exists_kind h
  rw [heq, List.append_assoc, List.cons_append]
  intro hsame
  exact absurd (word_inj hk hf rfl rfl hsame).2.1 (by decide)

private theorem SkeletonEntry.write_ne_close {e : SkeletonEntry} (h : e.Spelled) :
    e.write ++ r ≠ ')' :: r' := by
  obtain ⟨k,c,body,hk,hc,heq⟩ := exists_word h
  rw [heq, List.append_assoc, List.cons_append]
  intro hsame
  have hmark : isMark c = true := by rcases hc with rfl | rfl <;> rfl
  obtain ⟨-,rfl,-⟩ := @word_inj _ _ _ "" _ ')' hk rfl hmark rfl hsame
  simp at hc

mutual
private theorem Skeleton.write_inj : (s t : Skeleton) → s.Spelled → t.Spelled →
    ∀ {r r' : List Char}, s.write ++ r = t.write ++ r' → s = t ∧ r = r'
  | .leaf kind text, .leaf kind' text', hs, ht, r, r', h => by
    simp only [Skeleton.write, List.append_assoc, List.cons_append, List.nil_append] at h
    obtain ⟨rfl,-,hbody⟩ := word_inj hs ht rfl rfl h
    obtain ⟨rfl,hrest⟩ := quoted_inj hbody
    exact ⟨rfl,(List.cons.inj hrest).2⟩
  | .leaf kind text, .branch kind' es, hs, ht, r, r', h => by
    simp only [Skeleton.write, List.append_assoc, List.cons_append, List.nil_append] at h
    obtain ⟨-,-,hbody⟩ := word_inj hs ht.1 rfl rfl h
    exact (SkeletonEntry.writeAll_ne_quoted ht.2 text hbody.symm).elim
  | .branch kind es, .leaf kind' text, hs, ht, r, r', h => by
    simp only [Skeleton.write, List.append_assoc, List.cons_append, List.nil_append] at h
    obtain ⟨-,-,hbody⟩ := word_inj hs.1 ht rfl rfl h
    exact (SkeletonEntry.writeAll_ne_quoted hs.2 text hbody).elim
  | .branch kind es, .branch kind' es', hs, ht, r, r', h => by
    simp only [Skeleton.write, List.append_assoc, List.cons_append, List.nil_append] at h
    obtain ⟨rfl,-,hbody⟩ := word_inj hs.1 ht.1 rfl rfl h
    obtain ⟨rfl,hrest⟩ := SkeletonEntry.writeAll_inj es es' hs.2 ht.2 hbody
    exact ⟨rfl,hrest⟩

private theorem SkeletonEntry.write_inj : (e e' : SkeletonEntry) → e.Spelled → e'.Spelled →
    ∀ {r r' : List Char}, e.write ++ r = e'.write ++ r' → e = e' ∧ r = r'
  | .part none s, .part none t, hs, ht, r, r', h => by
    obtain ⟨rfl,hrest⟩ := Skeleton.write_inj s t hs.2 ht.2 h
    exact ⟨rfl,hrest⟩
  | .part (some f) s, .part (some g) t, hs, ht, r, r', h => by
    simp only [SkeletonEntry.write, List.append_assoc, List.cons_append] at h
    obtain ⟨rfl,-,hbody⟩ := word_inj hs.1 ht.1 rfl rfl h
    obtain ⟨rfl,hrest⟩ := Skeleton.write_inj s t hs.2 ht.2 hbody
    exact ⟨rfl,hrest⟩
  | .mark f text, .mark g text', hs, ht, r, r', h => by
    simp only [SkeletonEntry.write, List.append_assoc, List.cons_append] at h
    obtain ⟨rfl,-,hbody⟩ := word_inj hs ht rfl rfl h
    obtain ⟨rfl,hrest⟩ := quoted_inj hbody
    exact ⟨rfl,hrest⟩
  | .part none s, .part (some g) t, hs, ht, r, r', h => by
    simp only [SkeletonEntry.write, List.append_assoc, List.cons_append] at h
    exact (Skeleton.write_ne_field hs.2 ht.1 h).elim
  | .part none s, .mark g text, hs, ht, r, r', h => by
    simp only [SkeletonEntry.write, List.append_assoc, List.cons_append] at h
    exact (Skeleton.write_ne_field hs.2 ht h).elim
  | .part (some f) s, .part none t, hs, ht, r, r', h => by
    simp only [SkeletonEntry.write, List.append_assoc, List.cons_append] at h
    exact (Skeleton.write_ne_field ht.2 hs.1 h.symm).elim
  | .mark f text, .part none t, hs, ht, r, r', h => by
    simp only [SkeletonEntry.write, List.append_assoc, List.cons_append] at h
    exact (Skeleton.write_ne_field ht.2 hs h.symm).elim
  | .part (some f) s, .mark g text, hs, ht, r, r', h => by
    simp only [SkeletonEntry.write, List.append_assoc, List.cons_append] at h
    obtain ⟨-,-,hbody⟩ := word_inj hs.1 ht rfl rfl h
    exact (Skeleton.write_ne_quoted hs.2 text hbody).elim
  | .mark f text, .part (some g) t, hs, ht, r, r', h => by
    simp only [SkeletonEntry.write, List.append_assoc, List.cons_append] at h
    obtain ⟨-,-,hbody⟩ := word_inj hs ht.1 rfl rfl h
    exact (Skeleton.write_ne_quoted ht.2 text hbody.symm).elim

private theorem SkeletonEntry.writeAll_inj : (es es' : List SkeletonEntry) →
    SkeletonEntry.SpelledAll es → SkeletonEntry.SpelledAll es' →
    ∀ {r r' : List Char}, SkeletonEntry.writeAll es ++ ')' :: r =
      SkeletonEntry.writeAll es' ++ ')' :: r' → es = es' ∧ r = r'
  | [], [], _, _, r, r', heq => ⟨rfl,(List.cons.inj heq).2⟩
  | [], e' :: es', _, h', r, r', heq => by
    rw [SkeletonEntry.writeAll, SkeletonEntry.writeAll, List.append_assoc] at heq
    exact (SkeletonEntry.write_ne_close h'.1 heq.symm).elim
  | e :: es, [], h, _, r, r', heq => by
    rw [SkeletonEntry.writeAll, SkeletonEntry.writeAll, List.append_assoc] at heq
    exact (SkeletonEntry.write_ne_close h.1 heq).elim
  | e :: es, e' :: es', h, h', r, r', heq => by
    rw [SkeletonEntry.writeAll, SkeletonEntry.writeAll, List.append_assoc, List.append_assoc] at heq
    obtain ⟨rfl,hrest⟩ := SkeletonEntry.write_inj e e' h.1 h'.1 heq
    obtain ⟨rfl,hend⟩ := SkeletonEntry.writeRest_inj es es' h.2 h'.2 hrest
    exact ⟨rfl,hend⟩

private theorem SkeletonEntry.writeRest_inj : (es es' : List SkeletonEntry) →
    SkeletonEntry.SpelledAll es → SkeletonEntry.SpelledAll es' →
    ∀ {r r' : List Char}, SkeletonEntry.writeRest es ++ ')' :: r =
      SkeletonEntry.writeRest es' ++ ')' :: r' → es = es' ∧ r = r'
  | [], [], _, _, r, r', heq => ⟨rfl,(List.cons.inj heq).2⟩
  | [], e' :: es', _, _, r, r', heq => absurd (List.cons.inj heq).1 (by decide)
  | e :: es, [], _, _, r, r', heq => absurd (List.cons.inj heq).1 (by decide)
  | e :: es, e' :: es', h, h', r, r', heq => by
    simp only [SkeletonEntry.writeRest, List.cons_append, List.append_assoc, List.cons.injEq,
      true_and] at heq
    obtain ⟨rfl,hrest⟩ := SkeletonEntry.write_inj e e' h.1 h'.1 heq
    obtain ⟨rfl,hend⟩ := SkeletonEntry.writeRest_inj es es' h.2 h'.2 hrest
    exact ⟨rfl,hend⟩
end

end Uniqueness

namespace Node

private theorem isSpelled_child {n c : Node} (h : n.isSpelled = true) (hc : c ∈ n.children) :
    c.isSpelled = true := by
  rw [isSpelled, List.all_eq_true] at h ⊢
  exact fun m hm => h m ((mem_preorder n m).mpr (.inr (preorder_subset hc m hm)))

private theorem words_of_isSpelled {n : Node} (h : n.isSpelled = true) :
    (n.named = true → isUnmarked n.kind = true) ∧ n.field.all isUnmarked = true := by
  have hself := List.all_eq_true.mp h n ((mem_preorder n n).mpr (.inl rfl))
  rw [Bool.and_eq_true, Bool.or_eq_true, Bool.not_eq_true'] at hself
  exact ⟨fun hnamed => hself.1.resolve_left (by simp [hnamed]),hself.2⟩

mutual
private theorem spelled_skeleton : (n : Node) → n.named = true → n.isSpelled = true →
    n.skeleton.Spelled
  | .mk kind named field text row column children, hnamed, h => by
    have hkind := (words_of_isSpelled h).1 hnamed
    have hentries := spelled_entries children fun c hc => isSpelled_child h hc
    rw [skeleton]
    split
    · exact hkind
    · exact ⟨hkind,hentries⟩

private theorem spelled_entries : (cs : List Node) → (∀ c ∈ cs, c.isSpelled = true) →
    SkeletonEntry.SpelledAll (entries cs)
  | [], _ => trivial
  | c :: rest, h => by
    rw [List.forall_mem_cons] at h
    have hrest := spelled_entries rest h.2
    have hfield := (words_of_isSpelled h.1).2
    rw [entries]
    split
    · next hpart =>
      have hnamed : c.named = true := by
        rw [isPart, Bool.and_eq_true] at hpart
        exact hpart.1
      exact ⟨⟨hfield,spelled_skeleton c hnamed h.1⟩,hrest⟩
    · cases hf : c.field with
      | none => exact hrest
      | some f =>
        rw [hf] at hfield
        exact ⟨hfield,hrest⟩
end

/-- Dumps tell the shapes of nodes and nothing else, whatever the texts. -/
theorem dump_eq_iff_skeleton {n m : Node} (hn : n.named = true) (hm : m.named = true)
    (hspelled : n.isSpelled = true) (hspelled' : m.isSpelled = true) :
    n.dump = m.dump ↔ n.skeleton = m.skeleton := by
  rw [← String.toList_inj, toList_dump, toList_dump]
  refine ⟨fun h => ?_,congrArg Skeleton.write⟩
  have hend : n.skeleton.write ++ [] = m.skeleton.write ++ [] := by rw [h]
  exact (Skeleton.write_inj _ _ (spelled_skeleton n hn hspelled) (spelled_skeleton m hm hspelled')
    hend).1

private def listOf (texts : List String) : Node :=
  branch "list" "" none 0 0 (texts.map fun text => leaf "identifier" text none 0 0)

/-- One text that looks like the end of an entry and the beginning of the next is no two texts. -/
theorem dump_eq_iff_skeleton_marks :
    let one := listOf ["a'), identifier('b"]
    let two := listOf ["a", "b"]
    one.named = true ∧ two.named = true ∧ one.isSpelled = true ∧ two.isSpelled = true ∧
      one.dump ≠ two.dump := by
  intro one two
  have hone : one.isSpelled = true := by decide +kernel
  have htwo : two.isSpelled = true := by decide +kernel
  refine ⟨rfl,rfl,hone,htwo,fun hdump => ?_⟩
  have hsame := (dump_eq_iff_skeleton rfl rfl hone htwo).mp hdump
  simp [one, two, listOf, leaf, branch, skeleton, entries, isPart, named, kind, field] at hsame

end Node

end DocSnapshot.Python
