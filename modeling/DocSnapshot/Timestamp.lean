import DocSnapshot.Text.CharClass

/-! Moments in time, read and written as dates with a time of day. -/
namespace DocSnapshot

/-- A moment: whole seconds since the start of 1970 and nanoseconds. During a leap second the
nanoseconds go on past one thousand million. -/
structure Timestamp where
  seconds : Int
  nanos : Nat
  deriving DecidableEq, Repr

namespace Timestamp

inductive Fault where
  | tooShort
  | invalid
  | outOfRange
  | impossible
  | tooLong
  deriving DecidableEq, Repr

def Fault.message : Fault → String
  | .tooShort => "premature end of input"
  | .invalid => "input contains invalid characters"
  | .outOfRange => "input is out of range"
  | .impossible => "no possible date and time matching input"
  | .tooLong => "trailing input"

structure Date where
  year : Int
  month : Nat
  day : Nat
  deriving DecidableEq, Repr

def isLeap (year : Int) : Bool := year % 4 = 0 && (year % 100 ≠ 0 || year % 400 = 0)

def daysInMonth (year : Int) (month : Nat) : Nat :=
  if month = 2 then if isLeap year then 29 else 28
  else if month = 4 || month = 6 || month = 9 || month = 11 then 30 else 31

/-- Days since the start of 1970. Years are taken from March on, so that leap days come last. -/
def Date.toDays (d : Date) : Int :=
  let y := if d.month ≤ 2 then d.year - 1 else d.year
  let era := y.fdiv 400
  let yearOfEra := y - era * 400
  let m : Int := if d.month ≤ 2 then d.month + 9 else (d.month : Int) - 3
  let dayOfYear := (153 * m + 2) / 5 + d.day - 1
  let dayOfEra := yearOfEra * 365 + yearOfEra / 4 - yearOfEra / 100 + dayOfYear
  era * 146097 + dayOfEra - 719468

def Date.ofDays (days : Int) : Date :=
  let z := days + 719468
  let era := z.fdiv 146097
  let dayOfEra := z - era * 146097
  let yearOfEra := (dayOfEra - dayOfEra / 1460 + dayOfEra / 36524 - dayOfEra / 146096) / 365
  let dayOfYear := dayOfEra - (365 * yearOfEra + yearOfEra / 4 - yearOfEra / 100)
  let m := (5 * dayOfYear + 2) / 153
  let month := if m < 10 then m + 3 else m - 9
  let year := yearOfEra + era * 400 + (if month ≤ 2 then 1 else 0)
  ⟨year, month.toNat, (dayOfYear - (153 * m + 2) / 5 + 1).toNat⟩

def padded (width n : Nat) : List Char :=
  let ds := Nat.toDigits 10 n
  List.replicate (width - ds.length) '0' ++ ds

def renderYear (year : Int) : List Char :=
  if 0 ≤ year ∧ year ≤ 9999 then padded 4 year.toNat
  else (if year < 0 then '-' else '+') :: padded 4 year.natAbs

def renderFraction (nanos : Nat) : List Char :=
  if nanos = 0 then []
  else if nanos % 1000000 = 0 then '.' :: padded 3 (nanos / 1000000)
  else if nanos % 1000 = 0 then '.' :: padded 6 (nanos / 1000)
  else '.' :: padded 9 nanos

def render (t : Timestamp) : String :=
  let date := Date.ofDays (t.seconds.fdiv 86400)
  let time := (t.seconds.fmod 86400).toNat
  let leap := t.nanos / 1000000000
  String.ofList (renderYear date.year ++ '-' :: padded 2 date.month ++ '-' :: padded 2 date.day ++
    'T' :: padded 2 (time / 3600) ++ ':' :: padded 2 (time / 60 % 60) ++
    ':' :: padded 2 (time % 60 + leap) ++ renderFraction (t.nanos % 1000000000) ++ ['Z'])

def number (width : Nat) (cs : List Char) : Except Fault (Nat × List Char) :=
  match cs with
  | [] => .error .tooShort
  | _ =>
    let ds := (cs.take width).takeWhile Char.isDigit
    if ds.isEmpty then .error .invalid
    else
      let n := ds.foldl (fun n c => n * 10 + (c.toNat - '0'.toNat)) 0
      if n < Nat.pow 2 63 then .ok (n, cs.drop ds.length) else .error .outOfRange

def ranged (low high : Nat) (cs : List Char) : Except Fault (Nat × List Char) := do
  let (n, rest) ← number 2 (Text.trimStart cs)
  if low ≤ n ∧ n ≤ high then .ok (n, rest) else .error .outOfRange

def year (cs : List Char) : Except Fault (Int × List Char) := do
  let cs := Text.trimStart cs
  let (n, rest) ← match cs with
    | '-' :: ds => do let (n, rest) ← number ds.length ds; pure (-(n : Int), rest)
    | '+' :: ds => do let (n, rest) ← number ds.length ds; pure ((n : Int), rest)
    | ds => do let (n, rest) ← number 4 ds; pure ((n : Int), rest)
  if -2147483648 ≤ n ∧ n < 2147483648 then .ok (n, rest) else .error .outOfRange

def literal (c : Char) (cs : List Char) : Except Fault (List Char) :=
  match Text.trimStart cs with
  | [] => .error .tooShort
  | d :: rest => if d = c then .ok rest else .error .invalid

def fraction (cs : List Char) : Except Fault (Nat × List Char) :=
  match cs with
  | '.' :: rest => do
    let (n, after) ← number 9 rest
    .ok (n * Nat.pow 10 (9 - (rest.length - after.length)), after.dropWhile Char.isDigit)
  | _ => .ok (0, cs)

private def twoDigits? : List Char → Option (Char × Char × List Char)
  | a :: b :: rest => some (a, b, rest)
  | _ => none

private def digit (c : Char) : Nat := c.toNat - '0'.toNat

private def isShort (cs : List Char) : Bool := (String.ofList cs).utf8ByteSize < 2

private def offsetValue (cs : List Char) : Except Fault (Nat × List Char) := do
  if isShort cs then throw .tooShort
  match twoDigits? cs with
  | none => throw .invalid
  | some (a, b, rest) =>
    if !(a.isDigit && b.isDigit) then throw .invalid
    let hours := digit a * 10 + digit b
    let rest := rest.dropWhile fun c => c = ':' || Text.isBlank c
    if isShort rest then throw .tooShort
    match twoDigits? rest with
    | none => throw .invalid
    | some (a, b, rest) =>
      if !(a.isDigit && b.isDigit) then throw .invalid
      if '6' ≤ a then throw .outOfRange
      return (hours * 3600 + (digit a * 10 + digit b) * 60, rest)

def offset (cs : List Char) : Except Fault (Int × List Char) :=
  match cs with
  | [] => .error .tooShort
  | c :: rest =>
    if (cs.take 3).map Char.toUpper = ['U', 'T', 'C'] then .ok (0, cs.drop 3)
    else if c = 'Z' || c = 'z' then .ok (0, rest)
    else if c = '+' then (offsetValue rest).map fun (n, r) => ((n : Int), r)
    else if c = '-' || c = '\u2212' then (offsetValue rest).map fun (n, r) => (-(n : Int), r)
    else .error .invalid

def firstDay : Int := Date.toDays ⟨-262143, 1, 1⟩

def lastDay : Int := Date.toDays ⟨262142, 12, 31⟩

def separator : List Char → Except Fault (List Char)
  | [] => .error .tooShort
  | c :: rest => if c = 't' || c = 'T' || c = ' ' then .ok rest else .error .invalid

/-- A date and a time of day as they were written, with the seconds by which the clock is ahead of
universal time. -/
structure Reading where
  date : Date
  hour : Nat
  minute : Nat
  second : Nat
  nanos : Nat
  shift : Int
  deriving DecidableEq, Repr

def Reading.moment (r : Reading) : Except Fault Timestamp :=
  if r.date.year < -262143 ∨ 262142 < r.date.year ∨
      daysInMonth r.date.year r.date.month < r.date.day then .error .outOfRange
  else if 86400 ≤ r.shift.natAbs then .error .outOfRange
  else
    let leap := if r.second = 60 then 1 else 0
    let clock := r.hour * 3600 + r.minute * 60 + (r.second - leap)
    let seconds := r.date.toDays * 86400 + clock - r.shift
    if seconds < firstDay * 86400 ∨ (lastDay + 1) * 86400 ≤ seconds then .error .impossible
    else .ok ⟨seconds, r.nanos + leap * 1000000000⟩

/-- Reads a date, a time and an offset. The letter between date and time may be a blank, blanks may
stand between the parts, and the offset may be `Z`, `UTC` or hours and minutes. -/
def parse (text : String) : Except Fault Timestamp := do
  let (y, cs) ← year text.toList
  let cs ← literal '-' cs
  let (month, cs) ← ranged 1 12 cs
  let cs ← literal '-' cs
  let (day, cs) ← ranged 1 31 cs
  let cs ← separator cs
  let (hour, cs) ← ranged 0 23 cs
  let cs ← literal ':' cs
  let (minute, cs) ← ranged 0 59 cs
  let cs ← literal ':' cs
  let (second, cs) ← ranged 0 60 cs
  let (nanos, cs) ← fraction cs
  let (shift, cs) ← offset (Text.trimStart cs)
  if (Text.trimStart cs).isEmpty then
    Reading.moment ⟨⟨y, month, day⟩, hour, minute, second, nanos, shift⟩
  else .error .tooLong

end Timestamp

end DocSnapshot
