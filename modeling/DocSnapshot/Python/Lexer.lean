import DocSnapshot.Grammar.Machine
import DocSnapshot.Python.Grammar
import DocSnapshot.Python.Layout
import DocSnapshot.Text.Identifier

/-! Python tokens. Which tokens are looked for depends on what the parser can use next; among those
the longest match wins. -/
namespace DocSnapshot.Python
open DocSnapshot.Grammar (TokenSet Lexeme Machine)
open DocSnapshot.Text (isNameStart isNamePart)

namespace Lexer

variable (text : Array Char)

def skipWhile (p : Char → Bool) (i : Nat) : Nat :=
  if h : i < text.size then if p text[i] then skipWhile p (i + 1) else i else i
termination_by text.size - i

private def hasAt (p : Char → Bool) (i : Nat) : Bool := (text[i]?).any p

private def isOneOf (s : String) (c : Char) : Bool := s.toList.contains c

private def digits? (i : Nat) : Option Nat :=
  -- The last underscore may have no digit behind it.
  if h : i < text.size then
    if text[i].isDigit then
      let j := if hasAt text (· = '_') (i + 1) then i + 2 else i + 1
      some ((digits? j).getD j)
    else none
  else none
termination_by text.size - i
decreasing_by split <;> omega

private def based? (digit : Char → Bool) (i : Nat) : Option Nat :=
  let j := if hasAt text (· = '_') i then i + 1 else i
  if h : j < text.size then
    if digit text[j] then
      some ((based? digit (j + 1)).getD (j + 1))
    else none
  else none
termination_by text.size - i
decreasing_by grind

private def optional (p : Char → Bool) (i : Nat) : Nat := if hasAt text p i then i + 1 else i

private def longSuffix (i : Nat) : Nat := optional text (isOneOf "lL") i

private def basedInteger? (letters : String) (digit : Char → Bool) (i : Nat) : Option Nat :=
  if hasAt text (· = '0') i && hasAt text (isOneOf letters) (i + 1) then
    (based? text digit (i + 2)).map (longSuffix text)
  else none

private def longer (a b : Option Nat) : Option Nat :=
  match a, b with
  | some i, some j => some (max i j)
  | some i, none => some i
  | none, b => b

private def isHex (c : Char) : Bool := c.isDigit || isOneOf "abcdefABCDEF" c

private def integer? (i : Nat) : Option Nat :=
  longer ((digits? text i).map fun j => optional text (isOneOf "lLjJ") j)
    (longer (basedInteger? text "xX" isHex i)
      (longer (basedInteger? text "oO" (fun c => '0' ≤ c && c ≤ '7') i)
        (basedInteger? text "bB" (isOneOf "01") i)))

private def exponent? (i : Nat) : Option Nat :=
  if hasAt text (isOneOf "eE") i then digits? text (optional text (isOneOf "+-") (i + 1)) else none

private def float? (i : Nat) : Option Nat :=
  let whole := digits? text i
  let dot := whole.getD i
  let body :=
    if hasAt text (· = '.') dot then
      match whole, digits? text (dot + 1) with
      | none, none => none
      | _, fraction =>
        let j := fraction.getD (dot + 1)
        some ((exponent? text j).getD j)
    else whole.bind (exponent? text)
  body.map (optional text (isOneOf "jJ"))

private def name? (i : Nat) : Option Nat :=
  if hasAt text isNameStart i then some (skipWhile text isNamePart (i + 1)) else none

private def comment? (i : Nat) : Option Nat :=
  if hasAt text (· = '#') i then some (skipWhile text (· ≠ '\n') (i + 1)) else none

private def lineEnd? (i : Nat) : Option Nat :=
  if hasAt text (· = '\n') i then some (i + 1)
  else if hasAt text (· = '\r') i && hasAt text (· = '\n') (i + 1) then some (i + 2)
  else none

private def lineContinuation? (i : Nat) : Option Nat :=
  if hasAt text (· = '\\') i then
    if text.size ≤ i + 1 then some (i + 1)
    else if hasAt text (· = '\x00') (i + 1) then some (i + 2)
    else lineEnd? text (i + 1)
  else none

private def exactly? (n : Nat) (p : Char → Bool) (i : Nat) : Option Nat :=
  if (List.range n).all fun k => hasAt text p (i + k) then some (i + n) else none

private def escapeSequence? (i : Nat) : Option Nat :=
  if hasAt text (· = '\\') i then
    match text[i + 1]? with
    | none => none
    | some c =>
      let j := i + 2
      if c = 'u' then exactly? text 4 isHex j
      else if c = 'U' then exactly? text 8 isHex j
      else if c = 'x' then exactly? text 2 isHex j
      else if c.isDigit then
        some (if hasAt text Char.isDigit j then optional text Char.isDigit (j + 1) else j)
      else if isOneOf "'\"abfrntv\\" c then some j
      else if c = 'N' then
        if hasAt text (· = '\x7b') j && hasAt text (· ≠ '\x7d') (j + 1) then
          let k := skipWhile text (· ≠ '\x7d') (j + 1)
          if hasAt text (· = '\x7d') k then some (k + 1) else none
        else none
      else lineEnd? text (i + 1)
  else none

private def formatText? (i : Nat) : Option Nat :=
  let p (c : Char) : Bool := c ≠ '\x7b' && c ≠ '\x7d' && c ≠ '\n'
  if hasAt text p i then some (skipWhile text p (i + 1)) else none

private def typeConversion? (i : Nat) : Option Nat :=
  if hasAt text (· = '!') i && hasAt text Char.isLower (i + 1) then some (i + 2) else none

private def literal? (s : List Char) (i : Nat) : Option Nat :=
  match s with
  | [] => some i
  | c :: rest => if hasAt text (· = c) i then literal? rest (i + 1) else none

/-- The characters skipped between tokens. -/
def isSeparator (c : Char) : Bool :=
  c = ' ' || ('\x09' ≤ c && c ≤ '\x0d') || c = '\ufeff' || c = '\u2060' || c = '\u200b'

end Lexer

private def spelling (name : String) : String :=
  match name with
  | "ellipsis" => "..."
  | "true" => "True"
  | "false" => "False"
  | "none" => "None"
  | _ => name

private def unspelled : List String :=
  ["identifier", "integer", "float", "string_start", "string_end", "escape_interpolation",
    "escape_sequence", "type_conversion", "comment", "line_continuation", "newline", "indent",
    "dedent", "string text", "lone backslash", "format text", DocSnapshot.Grammar.endToken]

private def isWord (s : String) : Bool :=
  match s.toList with
  | [] => false
  | c :: rest => isNameStart c && rest.all isNamePart

private def symbols : List (Nat × List Char) :=
  table.tokenNames.toList.zipIdx.filterMap fun (n, i) =>
    if unspelled.contains n || isWord (spelling n) then none else some (i, (spelling n).toList)

private def keywords : List (List Char × Nat) :=
  table.tokenNames.toList.zipIdx.filterMap fun (n, i) =>
    if unspelled.contains n || !isWord (spelling n) then none else some ((spelling n).toList, i)

private def keywordSet : TokenSet := keywords.foldl (fun s (_, i) => s ||| TokenSet.single i) 0

private def isKeyword (token : Nat) : Bool := keywordSet.has token

private def wordSet : TokenSet := keywordSet ||| TokenSet.single table.word

namespace Lexer

variable (text : Array Char)

private structure Matcher where
  token : Nat
  strength : Nat
  immediate : Bool
  run : Array Char → Nat → Option Nat

private def matchers : List Matcher := [
  ⟨table.token "integer", 0, false, integer?⟩,
  ⟨table.token "float", 0, false, float?⟩,
  ⟨table.token "comment", 0, false, comment?⟩,
  ⟨table.token "line_continuation", 0, false, lineContinuation?⟩,
  ⟨table.token "type_conversion", 0, false, typeConversion?⟩,
  ⟨table.token "escape_sequence", 1, true, escapeSequence?⟩,
  ⟨table.token "lone backslash", 0, true, fun text => literal? text ['\\']⟩,
  ⟨table.token "format text", 1, false, formatText?⟩]

private structure Best where
  token : Nat
  strength : Nat
  stop : Nat

private def better (old : Option Best) (new : Best) : Option Best :=
  match old with
  | none => some new
  | some b =>
    if b.strength < new.strength || (b.strength = new.strength && b.stop < new.stop) then some new
    else some b

private def word? (valid : TokenSet) (i : Nat) : Option Best :=
  if valid &&& wordSet = 0 then none
  else (name? text i).map fun j =>
    let spelled := (text.extract i j).toList
    let token := match keywords.find? (·.1 = spelled) with
      | some (_, k) => if valid.has k then k else table.word
      | none => table.word
    ⟨token, 0, j⟩

private def matchAt (valid : TokenSet) (first : Bool) (i : Nat) : Option Best :=
  let start := word? text valid i
  let fixed := symbols.foldl (fun best (k, s) =>
    if valid.has k then
      match literal? text s i with
      | some j => better best ⟨k, 0, j⟩
      | none => best
    else best) start
  matchers.foldl (fun best m =>
    if valid.has m.token && (first || !m.immediate) then
      match m.run text i with
      | some j => better best ⟨m.token, m.strength, j⟩
      | none => best
    else best) fixed

private def search {α : Type} (find : Nat → Option α) (i : Nat) : Nat × Option α :=
  match find i with
  | some a => (i, some a)
  | none =>
    if h : i < text.size then
      if isSeparator text[i] then search find (i + 1) else (i, none)
    else (i, none)
termination_by text.size - i

private def plain (valid : TokenSet) (i : Nat) : Option (Lexeme Layout) :=
  match search text (fun j => matchAt text valid (i = j) j) i with
  | (j, some b) => some ⟨b.token, i, j, b.stop, none⟩
  | (j, none) => if j = text.size && valid.has 0 then some ⟨0, i, j, j, none⟩ else none

private def layoutToken : Layout.Token → Nat
  | .newline => table.token "newline"
  | .indent => table.token "indent"
  | .dedent => table.token "dedent"
  | .stringStart => table.token "string_start"
  | .stringText => table.token "string text"
  | .escapedBrace => table.token "escape_interpolation"
  | .stringEnd => table.token "string_end"

private def wanted (valid : TokenSet) : Layout.Wanted :=
  let has (n : String) : Bool := valid.has (table.token n)
  { newline := has "newline", indent := has "indent", dedent := has "dedent"
    stringStart := has "string_start", stringText := has "string text"
    escapedBrace := has "escape_interpolation"
    closing := has "]" || has ")" || has "\x7d", except := has "except" }

/-- The next token: what the layout reader finds, or else the next plain token. A byte order mark
at the very start is skipped first. -/
def next (valid : TokenSet) (layout : Option Layout) (pos : Nat) : Option (Lexeme Layout) :=
  let i := if pos = 0 && hasAt text (· = '\ufeff') 0 then 1 else pos
  match Layout.next text (wanted valid) (layout.getD .empty) i with
  | some f => some ⟨layoutToken f.token, pos, f.start, f.stop, some f.layout⟩
  | none =>
    match plain text valid i with
    | some l => some { l with before := pos }
    | none => none

end Lexer

def lexer (text : Array Char) : Machine.Lexer Layout :=
  ⟨Lexer.next text, isKeyword, text.size⟩

end DocSnapshot.Python
