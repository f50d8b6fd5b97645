/-! Text as bytes in UTF-8. -/
namespace DocSnapshot.Text.Utf8

/-- Where decoding stops: the bytes before it are well formed. `length` is how many bytes of the
broken sequence fit together; there is none when the text ends inside a sequence. -/
structure Fault where
  index : Nat
  length : Option Nat
  deriving DecidableEq, Repr

def Fault.message (f : Fault) : String :=
  match f.length with
  | some n => "invalid utf-8 sequence of " ++ toString n ++ " bytes from index " ++ toString f.index
  | none => "incomplete utf-8 byte sequence from index " ++ toString f.index

def lead? (b : UInt8) : Option (Nat × UInt8 × UInt8) :=
  if 0xc2 ≤ b && b ≤ 0xdf then some (1, 0x80, 0xbf)
  else if b = 0xe0 then some (2, 0xa0, 0xbf)
  else if b = 0xed then some (2, 0x80, 0x9f)
  else if 0xe1 ≤ b && b ≤ 0xef then some (2, 0x80, 0xbf)
  else if b = 0xf0 then some (3, 0x90, 0xbf)
  else if 0xf1 ≤ b && b ≤ 0xf3 then some (3, 0x80, 0xbf)
  else if b = 0xf4 then some (3, 0x80, 0x8f)
  else none

def leadBits (b : UInt8) : Nat :=
  if b < 0xe0 then (b &&& 0x1f).toNat else if b < 0xf0 then (b &&& 0x0f).toNat
  else (b &&& 0x07).toNat

inductive Step where
  | char (c : Char) (rest : List UInt8)
  | broken (length : Nat)
  | cut
  deriving DecidableEq, Repr

/-- Reads the bytes behind a first byte: `n` more are due, the next within a range; `taken` have
fitted so far. -/
def tailBytes (code taken : Nat) : Nat → UInt8 → UInt8 → List UInt8 → Step
  | 0, _, _, rest => .char (Char.ofNat code) rest
  | _ + 1, _, _, [] => .cut
  | n + 1, low, high, b :: rest =>
    if low ≤ b && b ≤ high then
      tailBytes (code * 64 + (b &&& 0x3f).toNat) (taken + 1) n 0x80 0xbf rest
    else .broken taken

def step (b : UInt8) (rest : List UInt8) : Step :=
  if b < 0x80 then .char (Char.ofNat b.toNat) rest
  else match lead? b with
    | none => .broken 1
    | some (n, low, high) => tailBytes (leadBits b) 1 n low high rest

private theorem length_of_tailBytes {code taken n : Nat} {low high : UInt8} {bs rest : List UInt8}
    {c : Char} (h : tailBytes code taken n low high bs = .char c rest) :
    rest.length ≤ bs.length := by
  induction n generalizing code taken low high bs with
  | zero => simp [tailBytes] at h; simp [h.2]
  | succ n ih =>
    cases bs with
    | nil => simp [tailBytes] at h
    | cons b bs =>
      simp only [tailBytes] at h
      split at h
      · have := ih h; simp only [List.length_cons]; omega
      · simp at h

theorem length_of_step {b : UInt8} {bs rest : List UInt8} {c : Char}
    (h : step b bs = .char c rest) : rest.length ≤ bs.length := by
  unfold step at h
  split at h
  · simp at h; simp [h.2]
  · split at h
    · simp at h
    · exact length_of_tailBytes h

def decodeFrom (index : Nat) (bytes : List UInt8) : Except Fault (List Char) :=
  match bytes with
  | [] => .ok []
  | b :: rest =>
    match h : step b rest with
    | .char c after =>
      have := length_of_step h
      (decodeFrom (index + c.utf8Size) after).map (c :: ·)
    | .broken n => .error ⟨index, some n⟩
    | .cut => .error ⟨index, none⟩
termination_by bytes.length
decreasing_by simp_wf; omega

def decode (bytes : List UInt8) : Except Fault String := (decodeFrom 0 bytes).map String.ofList

private def decodeLossyChars (bytes : List UInt8) : List Char :=
  match bytes with
  | [] => []
  | b :: rest =>
    match h : step b rest with
    | .char c after =>
      have := length_of_step h
      c :: decodeLossyChars after
    | .broken n => '\ufffd' :: decodeLossyChars (rest.drop (n - 1))
    | .cut => ['\ufffd']
termination_by bytes.length
decreasing_by all_goals simp_wf <;> omega

def decodeLossy (bytes : List UInt8) : String := String.ofList (decodeLossyChars bytes)

def dropMark (bytes : List UInt8) : List UInt8 :=
  match bytes with
  | 0xef :: 0xbb :: 0xbf :: rest => rest
  | _ => bytes

def encode (s : String) : List UInt8 := s.toUTF8.toList

end DocSnapshot.Text.Utf8
