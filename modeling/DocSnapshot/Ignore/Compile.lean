import DocSnapshot.Ignore.Glob

/-! Reading glob patterns. -/
namespace DocSnapshot.Ignore

inductive Fault where
  | unclosedClass
  | invalidRange (low high : Char)
  | unclosedGroup
  | unopenedGroup
  | danglingEscape
  deriving DecidableEq, Repr

def Fault.message : Fault → String
  | .unclosedClass => "unclosed character class; missing ']'"
  | .invalidRange low high =>
    "invalid range; '" ++ String.singleton low ++ "' > '" ++ String.singleton high ++ "'"
  | .unclosedGroup =>
    "unclosed alternate group; missing '\x7d' (maybe escape '\x7b' with '[\x7b]'?)"
  | .unopenedGroup =>
    "unopened alternate group; missing '\x7b' (maybe escape '\x7d' with '[\x7d]'?)"
  | .danglingEscape => "dangling '\\'"

private structure ClassDraft where
  ranges : List (Char × Char) := []
  inRange : Bool := false

private def ClassDraft.single (d : ClassDraft) (c : Char) : ClassDraft :=
  { d with ranges := (c, c) :: d.ranges }

private def ClassDraft.close (d : ClassDraft) (c : Char) : Except Fault ClassDraft :=
  match d.ranges with
  | [] => .ok d
  | (low, _) :: rest =>
    if c < low then .error (.invalidRange low c) else .ok ⟨(low, c) :: rest, false⟩

private def ClassDraft.finish (d : ClassDraft) : List (Char × Char) :=
  (if d.inRange then d.single '-' else d).ranges.reverse

private def classBody (first : Bool) (d : ClassDraft) :
    List Char → Except Fault (List (Char × Char) × List Char)
  -- A bracket or dash that comes first stands for itself, and so does a dash that comes last.
  | [] => .error .unclosedClass
  | c :: cs =>
    if c = ']' && !first then .ok (d.finish, cs)
    else if c = '-' && !first && !d.inRange then classBody false { d with inRange := true } cs
    else if d.inRange then
      match d.close c with
      | .ok d => classBody false d cs
      | .error e => .error e
    else classBody false (d.single c) cs

private theorem length_of_classBody {first : Bool} {d : ClassDraft} {cs rest : List Char}
    {ranges : List (Char × Char)} (h : classBody first d cs = .ok (ranges, rest)) :
    rest.length < cs.length := by
  induction cs generalizing first d with
  | nil => simp [classBody] at h
  | cons c cs ih =>
    simp only [classBody] at h
    split at h
    · simp at h
      simp [h.2]
    · split at h
      · have := ih h
        simp only [List.length_cons]
        omega
      · split at h
        · split at h
          · have := ih h
            simp only [List.length_cons]
            omega
          · simp at h
        · have := ih h
          simp only [List.length_cons]
          omega

private def classToken (cs : List Char) : Except Fault (Token × List Char) :=
  let negated := cs.head? = some '!' || cs.head? = some '^'
  (classBody true {} (if negated then cs.tail else cs)).map fun (ranges, rest) =>
    (.oneOf negated ranges, rest)

private theorem length_of_classToken {cs rest : List Char} {t : Token}
    (h : classToken cs = .ok (t, rest)) : rest.length < cs.length := by
  unfold classToken at h
  simp only [Except.map] at h
  split at h
  · simp at h
  · next v hv =>
    have hlt := length_of_classBody hv
    simp only [Except.ok.injEq, Prod.mk.injEq] at h
    obtain ⟨_, rfl⟩ := h
    refine Nat.lt_of_lt_of_le hlt ?_
    split <;> simp

private structure Group where
  finished : List (List Token)
  outer : List Token

private structure GlobDraft where
  current : List Token := []
  groups : List Group := []

namespace GlobDraft

private def push (d : GlobDraft) (t : Token) : GlobDraft := { d with current := t :: d.current }

private def openGroup (d : GlobDraft) : GlobDraft := ⟨[], ⟨[], d.current⟩ :: d.groups⟩

private def nextAlternative (d : GlobDraft) : GlobDraft :=
  match d.groups with
  | [] => d.push (.literal ',')
  | g :: rest => ⟨[], { g with finished := d.current.reverse :: g.finished } :: rest⟩

private def closeGroup (d : GlobDraft) : Except Fault GlobDraft :=
  match d.groups with
  | [] => .error .unopenedGroup
  | g :: rest =>
    .ok ⟨.choice (d.current.reverse :: g.finished).reverse :: g.outer, rest⟩

private def deepen (d : GlobDraft) (t : Token) : GlobDraft :=
  match d.current with
  | .deepStart :: _ | .deepEnd :: _ => d
  | _ :: rest => { d with current := t :: rest }
  | [] => d.push t

private def mayDeepen (d : GlobDraft) (last : Option Char) : Bool :=
  last = some '/' || (!d.groups.isEmpty && (last = some ',' || last = some '\x7b'))

end GlobDraft

private def readGlob (last : Option Char) (d : GlobDraft) (cs : List Char) :
    Except Fault GlobDraft :=
  -- Two stars are deep only as a whole part of a path.
  match cs with
  | [] => .ok d
  | '*' :: '*' :: rest =>
    let shallow := (d.push .star).push .star
    if d.current.isEmpty then
      match rest with
      | [] => .ok (d.push .deepStart)
      | '/' :: rest => readGlob (some '/') (d.push .deepStart) rest
      | c :: rest => readGlob (some '*') shallow (c :: rest)
    else if !d.mayDeepen last then readGlob (some '*') shallow rest
    else match rest with
      | [] => .ok (d.deepen .deepEnd)
      | c :: rest =>
        if (c = ',' || c = '\x7d') && !d.groups.isEmpty then
          readGlob (some '*') (d.deepen .deepEnd) (c :: rest)
        else if c = '/' then readGlob (some '/') (d.deepen .deep) rest
        else readGlob (some '*') shallow (c :: rest)
  | '*' :: rest => readGlob (some '*') (d.push .star) rest
  | '?' :: rest => readGlob (some '?') (d.push .any) rest
  | '\x7b' :: rest => readGlob (some '\x7b') d.openGroup rest
  | '\x7d' :: rest =>
    match d.closeGroup with
    | .ok d => readGlob (some '\x7d') d rest
    | .error e => .error e
  | ',' :: rest => readGlob (some ',') d.nextAlternative rest
  | ['\\'] => .error .danglingEscape
  | '\\' :: c :: rest => readGlob (some c) (d.push (.literal c)) rest
  | '[' :: rest =>
    match h : classToken rest with
    | .ok (t, rest') =>
      have := length_of_classToken h
      readGlob (some ']') (d.push t) rest'
    | .error e => .error e
  | c :: rest => readGlob (some c) (d.push (.literal c)) rest
termination_by cs.length
decreasing_by all_goals simp_wf <;> omega

def Glob.compile (pattern : List Char) : Except Fault Glob := do
  let d ← readGlob none {} pattern
  if d.groups.isEmpty then return d.current.reverse else throw .unclosedGroup

/-- Whether a character of a pattern may stand for something else than itself. -/
def isSpecial (c : Char) : Bool := ['*', '?', '[', '\\', '\x7b', '\x7d', ','].contains c

private theorem readGlob_literal {cs : List Char} (h : ∀ c ∈ cs, isSpecial c = false)
    (last : Option Char) (d : GlobDraft) :
    readGlob last d cs = .ok { d with current := cs.reverse.map .literal ++ d.current } := by
  induction cs generalizing last d with
  | nil => rw [readGlob]; rfl
  | cons c cs ih =>
    rw [List.forall_mem_cons] at h
    obtain ⟨hc,hcs⟩ := h
    simp only [isSpecial, List.contains_cons, List.contains_nil, Bool.or_eq_false_iff,
      beq_eq_false_iff_ne] at hc
    rw [readGlob, ih hcs]
    · simp [GlobDraft.push]
    all_goals simp [hc]

/-- A pattern without special characters stands for itself. -/
theorem Glob.compile_literal {cs : List Char} (h : ∀ c ∈ cs, isSpecial c = false) :
    Glob.compile cs = .ok (cs.map .literal) := by
  simp [Glob.compile, readGlob_literal h, bind, Except.bind, pure, Except.pure]

/-- Behind a deep start, too, a pattern without special characters stands for itself. -/
theorem Glob.compile_deepStart_literal {cs : List Char} (h : ∀ c ∈ cs, isSpecial c = false) :
    Glob.compile ('*' :: '*' :: '/' :: cs) = .ok (.deepStart :: cs.map .literal) := by
  rw [Glob.compile, readGlob, if_pos rfl, readGlob_literal h]
  simp [GlobDraft.push, bind, Except.bind, pure, Except.pure]

end DocSnapshot.Ignore
