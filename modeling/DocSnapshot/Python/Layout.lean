/-! The part of reading Python that needs a memory: line ends, indentation and the inside of string
literals. -/
namespace DocSnapshot.Python

/-- An open string literal. -/
structure Quote where
  mark : Char
  triple : Bool
  raw : Bool
  format : Bool
  bytes : Bool
  deriving DecidableEq, Repr

/-- What the layout reader remembers: the open string literals and the indentation of the open
blocks, innermost first, and whether the last literal begun is a format string. -/
structure Layout where
  inFormat : Bool
  quotes : List Quote
  indents : List Nat
  deriving DecidableEq, Repr

namespace Layout

def empty : Layout := ⟨false, [], []⟩

def indent (l : Layout) : Nat := l.indents.headD 0

def push (l : Layout) (columns : Nat) : Layout := { l with indents := columns % 256 :: l.indents }

def pop (l : Layout) : Layout := { l with indents := l.indents.tail }

inductive Token where
  | newline
  | indent
  | dedent
  | stringStart
  | stringText
  | escapedBrace
  | stringEnd
  deriving DecidableEq, Repr

/-- Which tokens fit at the present place, and what other facts the reader needs about it. -/
structure Wanted where
  newline : Bool
  indent : Bool
  dedent : Bool
  stringStart : Bool
  stringText : Bool
  escapedBrace : Bool
  closing : Bool
  except : Bool
  deriving DecidableEq, Repr

structure Found where
  token : Token
  start : Nat
  stop : Nat
  layout : Layout
  deriving DecidableEq, Repr

variable (text : Array Char)

private def look (i : Nat) : Char := text.getD i '\x00'

private def isBrace (c : Char) : Bool := c = '\x7b' || c = '\x7d'

private def afterRawBackslash (mark : Char) (i : Nat) : Nat :=
  let i := i + 1
  let i := if look text i = mark || look text i = '\\' then i + 1 else i
  if look text i = '\r' then if look text (i + 1) = '\n' then i + 2 else i + 1
  else if look text i = '\n' then i + 1 else i

private theorem lt_afterRawBackslash (mark : Char) (i : Nat) :
    i < afterRawBackslash text mark i := by
  grind [afterRawBackslash]

private inductive Inside where
  | found (f : Found)
  | nothing
  | atEnd (i : Nat)

private def closeQuote (l : Layout) : Layout :=
  { l with quotes := l.quotes.tail, inFormat := false }

private def inside (l : Layout) (q : Quote) (begun i : Nat) (some? : Bool) : Inside :=
  -- `begun` is where the token started; it is empty when nothing has been read yet.
  let piece (stop : Nat) : Inside := .found ⟨.stringText, begun, stop, l⟩
  let orNothing (stop : Nat) : Inside := if some? then piece stop else .nothing
  if h : i < text.size then
    let c := text[i]
    if c = '\x00' then .atEnd i
    else if isBrace c && q.format then orNothing i
    else if c = '\\' then
      if q.raw then
        have := lt_afterRawBackslash text q.mark i
        inside l q begun (afterRawBackslash text q.mark i) some?
      else if q.bytes && (look text (i + 1) = 'N' || look text (i + 1) = 'u'
          || look text (i + 1) = 'U') then
        inside l q begun (i + 3) true
      else orNothing i
    else if c = q.mark then
      if q.triple then
        if look text (i + 1) = q.mark then
          if look text (i + 2) = q.mark then
            if some? then piece i else .found ⟨.stringEnd, begun, i + 3, closeQuote l⟩
          else piece (i + 2)
        else piece (i + 1)
      else if some? then piece i
      else .found ⟨.stringEnd, begun, i + 1, closeQuote l⟩
    else if c = '\n' && some? && !q.triple then .nothing
    else inside l q begun (i + 1) true
  else .atEnd i
termination_by text.size - i

private structure Blanks where
  stop : Nat
  lineEnded : Bool
  columns : Nat
  comment : Option Nat

private def skipComment (i : Nat) : Nat :=
  if h : i < text.size then
    if text[i] = '\n' || text[i] = '\x00' then i + 1 else skipComment (i + 1)
  else i
termination_by text.size - i

private theorem lt_skipComment (i : Nat) (h : i < text.size) : i < skipComment text i := by
  fun_induction skipComment text i with
  | case1 => omega
  | case2 i hi _ ih =>
    by_cases hs : i + 1 < text.size
    · have := ih hs; omega
    · rw [skipComment]; simp [hs]
  | case3 => omega

private def skipBlanks (comments : Bool) (b : Blanks) : Option Blanks :=
  -- Nothing results if a comment comes first, or a backslash inside a line.
  if h : b.stop < text.size then
    let c := text[b.stop]
    if c = '\n' then
      skipBlanks comments { b with stop := b.stop + 1, lineEnded := true, columns := 0 }
    else if c = ' ' then
      skipBlanks comments { b with stop := b.stop + 1, columns := b.columns + 1 }
    else if c = '\r' || c = '\x0c' then
      skipBlanks comments { b with stop := b.stop + 1, columns := 0 }
    else if c = '\t' then
      skipBlanks comments { b with stop := b.stop + 1, columns := b.columns + 8 }
    else if c = '#' && comments then
      if !b.lineEnded then none
      else
        have := lt_skipComment text b.stop h
        skipBlanks comments { b with
          stop := skipComment text b.stop, columns := 0, comment := b.comment.or (some b.columns) }
    else if c = '\\' then
      let i := if look text (b.stop + 1) = '\r' then b.stop + 2 else b.stop + 1
      if look text i = '\n' then skipBlanks comments { b with stop := i + 1 }
      else if text.size ≤ i then skipBlanks comments { b with stop := i }
      else none
    else some b
  else some { b with lineEnded := true, columns := 0 }
termination_by text.size - b.stop
decreasing_by all_goals simp_wf; first | omega | (split <;> omega)

private def flags (q : Quote) (i : Nat) : Quote × Nat :=
  if h : i < text.size then
    let c := text[i]
    if c = 'f' || c = 'F' then flags { q with format := true } (i + 1)
    else if c = 'r' || c = 'R' then flags { q with raw := true } (i + 1)
    else if c = 'b' || c = 'B' then flags { q with bytes := true } (i + 1)
    else if c = 'u' || c = 'U' then flags q (i + 1)
    else (q, i)
  else (q, i)
termination_by text.size - i

private def opening? (l : Layout) (i : Nat) : Option Found :=
  let (q, j) := flags text ⟨'"', false, false, false, false⟩ i
  let c := look text j
  if c = '"' || c = '\'' || c = Char.ofNat 96 then
    let triple := c ≠ Char.ofNat 96 && look text (j + 1) = c && look text (j + 2) = c
    let q := { q with mark := c, triple := triple }
    some ⟨.stringStart, i, if triple then j + 3 else j + 1,
      { l with quotes := q :: l.quotes, inFormat := q.format }⟩
  else none

private def closesBlock (w : Wanted) (l : Layout) (b : Blanks) : Bool :=
  -- Comments at the depth of the block still belong to it, and so does everything inside brackets.
  let c := look text b.stop
  let atString := c = '"' || c = '\'' || c = Char.ofNat 96
  (w.dedent || (!w.newline && !(w.stringStart && atString) && !w.closing)) &&
    b.columns < l.indent && !l.inFormat && (b.comment.all (· < l.indent))

private def lineStart (w : Wanted) (l : Layout) (pos : Nat) (i : Nat) : Option Found :=
  -- The first three are empty tokens at `at`.
  let comments := w.indent || w.dedent || w.newline || w.except
  match skipBlanks text comments ⟨i, false, 0, none⟩ with
  | none => none
  | some b =>
    let empty (t : Token) (l : Layout) : Option Found := some ⟨t, pos, i, l⟩
    if b.lineEnded && w.indent && l.indent < b.columns then empty .indent (l.push b.columns)
    else if b.lineEnded && closesBlock text w l b then empty .dedent l.pop
    else if b.lineEnded && w.newline then empty .newline l
    else if b.comment.isNone && w.stringStart then opening? text l b.stop
    else none

def next (w : Wanted) (l : Layout) (i : Nat) : Option Found :=
  let c := look text i
  match l.quotes with
  | [] => lineStart text w l i i
  | q :: _ =>
    if w.escapedBrace && isBrace c && q.format then
      if look text (i + 1) = c then some ⟨.escapedBrace, i, i + 2, l⟩ else none
    else if w.stringText then
      match inside text l q i i false with
      | .found f => some f
      | .nothing => none
      | .atEnd j => lineStart text w l i j
    else lineStart text w l i i

end Layout

end DocSnapshot.Python
