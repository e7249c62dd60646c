import EditorBridge.Text.Blank
import EditorBridge.Time.Timestamp
/-!
# Reading timestamps

A date, a `T` or a blank, a time and an offset from universal time. Blanks may
stand around the numbers; a time may have decimals, of which nine count; the
offset is `Z`, the letters `UTC`, or hours and minutes with a sign.
-/

namespace EditorBridge.Timestamp

/-- Why a text is no timestamp. -/
inductive ReadError where
  | tooShort
  | invalid
  | outOfRange
  | trailing
  deriving DecidableEq, Repr

/-- The wording of an error. -/
def ReadError.message : ReadError → String
  | .tooShort => "premature end of input"
  | .invalid => "input contains invalid characters"
  | .outOfRange => "input is out of range"
  | .trailing => "trailing input"

/-- The characters from the first that is not blank. -/
def skipBlank (cs : List Char) : List Char := cs.dropWhile Text.isBlank

/-- The number that digits stand for. -/
def numberOf (ds : List Char) : Nat := ds.foldl (fun n c => 10 * n + (c.toNat - 48)) 0

/-- At least one digit, and at most `width` of them. -/
def digits (width : Nat) (cs : List Char) : Except ReadError (List Char × List Char) :=
  let ds := (cs.take width).takeWhile Char.isDigit
  if ds = [] then .error (if cs = [] then .tooShort else .invalid)
  else .ok (ds, cs.drop ds.length)

/-- A number between two bounds, after blanks. -/
def numberWithin (low high : Nat) (cs : List Char) : Except ReadError (Nat × List Char) := do
  let (ds, rest) ← digits 2 (skipBlank cs)
  let n := numberOf ds
  if low ≤ n ∧ n ≤ high then .ok (n, rest) else .error .outOfRange

/-- A year: four digits at most, or a sign and any number of digits. -/
def year (cs : List Char) : Except ReadError (Int × List Char) := do
  let cs := skipBlank cs
  let (y, rest) ←
    match cs with
    | '-' :: rest => do
      let (ds, rest) ← digits rest.length rest
      if Nat.pow 2 63 ≤ numberOf ds then throw .outOfRange
      pure (-(numberOf ds : Int), rest)
    | '+' :: rest => do
      let (ds, rest) ← digits rest.length rest
      if Nat.pow 2 63 ≤ numberOf ds then throw .outOfRange
      pure ((numberOf ds : Int), rest)
    | _ => do
      let (ds, rest) ← digits 4 cs
      pure ((numberOf ds : Int), rest)
  if -(Int.pow 2 31) ≤ y ∧ y < Int.pow 2 31 then .ok (y, rest) else .error .outOfRange

/-- A separator after blanks. -/
def separator (c : Char) (cs : List Char) : Except ReadError (List Char) :=
  match skipBlank cs with
  | [] => .error .tooShort
  | d :: rest => if c = d then .ok rest else .error .invalid

/-- The decimals of a second, if there are any, in nanoseconds. -/
def decimals (cs : List Char) : Except ReadError (Nat × List Char) :=
  match cs with
  | '.' :: rest => do
    let (ds, rest) ← digits 9 rest
    .ok (numberOf ds * Nat.pow 10 (9 - ds.length), rest.dropWhile Char.isDigit)
  | _ => .ok (0, cs)

/-- Two digits of an offset. -/
def twoDigits (cs : List Char) : Except ReadError (Nat × Nat × List Char) :=
  match cs with
  | a :: b :: rest =>
    if a.isDigit && b.isDigit then .ok (a.toNat - 48, b.toNat - 48, rest) else .error .invalid
  | [a] => if a.toNat < 128 then .error .tooShort else .error .invalid
  | [] => .error .tooShort

/-- An offset from universal time in seconds. -/
def offset (cs : List Char) : Except ReadError (Int × List Char) :=
  match cs with
  | [] => .error .tooShort
  | c :: rest =>
    if c = 'Z' ∨ c = 'z' then .ok (0, rest)
    else if (cs.take 3).map Char.toUpper = ['U', 'T', 'C'] then .ok (0, cs.drop 3)
    else if c = '+' then signed 1 rest
    else if c = '-' ∨ c = '\u2212' then signed (-1) rest
    else .error .invalid
where
  /-- Hours and minutes. -/
  signed (sign : Int) (cs : List Char) : Except ReadError (Int × List Char) := do
    let (h, h', rest) ← twoDigits cs
    let (m, m', rest) ← twoDigits (rest.dropWhile fun c => c == ':' || Text.isBlank c)
    if 6 ≤ m then .error .outOfRange
    else .ok (sign * ((10 * h + h' : Nat) * 3600 + (10 * m + m' : Nat) * 60 : Int), rest)

/-- The first and the last year of the calendar. -/
def yearRange : Int × Int := (-262143, 262142)

/-- A moment between the first and the last of the calendar, and in no leap second. -/
structure InCalendar (t : Timestamp) : Prop where
  first : Date.toDays ⟨yearRange.1, 1, 1⟩ * 86400 ≤ t.seconds
  last : t.seconds < (Date.toDays ⟨yearRange.2, 12, 31⟩ + 1) * 86400
  nanos : t.nanos < 1000000000

/-- The moment of a date and a time at an offset. The sixtieth second of a minute is a leap
second. -/
def ofParts (y : Int) (month day hour minute second nanos : Nat) (offset : Int) :
    Except ReadError Timestamp :=
  if y < yearRange.1 ∨ yearRange.2 < y ∨ daysInMonth y month < day ∨ 86400 ≤ offset.natAbs then
    .error .outOfRange
  else
    let (second, nanos) := if second = 60 then (59, nanos + 1000000000) else (second, nanos)
    let days := Date.toDays ⟨y, month, day⟩
    .ok ⟨days * 86400 + (hour * 3600 + minute * 60 + second : Nat) - offset, nanos⟩

/-- The timestamp of a text. -/
def ofChars (cs : List Char) : Except ReadError Timestamp := do
  let (y, cs) ← year cs
  let cs ← separator '-' cs
  let (month, cs) ← numberWithin 1 12 cs
  let cs ← separator '-' cs
  let (day, cs) ← numberWithin 1 31 cs
  let cs ←
    match cs with
    | [] => .error .tooShort
    | c :: rest => if c = 'T' ∨ c = 't' ∨ c = ' ' then .ok rest else .error .invalid
  let (hour, cs) ← numberWithin 0 23 cs
  let cs ← separator ':' cs
  let (minute, cs) ← numberWithin 0 59 cs
  let cs ← separator ':' cs
  let (second, cs) ← numberWithin 0 60 cs
  let (nanos, cs) ← decimals cs
  let (off, cs) ← offset (skipBlank cs)
  if skipBlank cs = [] then ofParts y month day hour minute second nanos off
  else .error .trailing

/-- The timestamp of a text. -/
def read (s : String) : Except ReadError Timestamp := ofChars s.toList

end EditorBridge.Timestamp
