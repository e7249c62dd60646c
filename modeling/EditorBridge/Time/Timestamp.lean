/-!
# Timestamps

A moment of coordinated universal time: whole seconds since 1970 and the
nanoseconds after them, which may exceed a second during a leap second. In text
it is written by RFC 3339 with 0, 3, 6 or 9 decimals, the fewest that lose
nothing.
-/

namespace EditorBridge

/-- Seconds since the epoch and the nanoseconds after them. -/
structure Timestamp where
  seconds : Int
  nanos : Nat
  deriving DecidableEq, Repr, Inhabited

namespace Timestamp

/-- The moment `n` nanoseconds after the epoch. -/
def ofNanos (n : Int) : Timestamp := ⟨n / 1000000000, (n % 1000000000).toNat⟩

/-- Nanoseconds since the epoch. -/
def toNanos (t : Timestamp) : Int := t.seconds * 1000000000 + t.nanos

/-! ## Order -/

/-- Moments are ordered by their seconds first, so all of a leap second comes before the second
after it. -/
instance : LE Timestamp where
  le a b := a.seconds < b.seconds ∨ a.seconds = b.seconds ∧ a.nanos ≤ b.nanos

theorem le_iff {a b : Timestamp} :
    a ≤ b ↔ a.seconds < b.seconds ∨ a.seconds = b.seconds ∧ a.nanos ≤ b.nanos := Iff.rfl

instance : DecidableLE Timestamp := fun _ _ => decidable_of_iff' _ le_iff

theorem le_refl (a : Timestamp) : a ≤ a := .inr ⟨rfl, Nat.le_refl _⟩

theorem le_trans {a b c : Timestamp} (hab : a ≤ b) (hbc : b ≤ c) : a ≤ c := by
  simp only [le_iff] at *
  omega

theorem le_total (a b : Timestamp) : a ≤ b ∨ b ≤ a := by
  simp only [le_iff]
  omega

theorem le_antisymm {a b : Timestamp} (hab : a ≤ b) (hba : b ≤ a) : a = b := by
  obtain ⟨s, n⟩ := a
  obtain ⟨s', n'⟩ := b
  simp only [le_iff] at hab hba
  simp only [mk.injEq]
  omega

/-! ## Days -/

/-- A day of the Gregorian calendar. -/
structure Date where
  year : Int
  month : Nat
  day : Nat
  deriving DecidableEq, Repr

/-- The day that is `days` after the first of January 1970. Years are counted from March so that
the day added in leap years is the last of its year. -/
def Date.ofDays (days : Int) : Date :=
  let z := days + 719468
  let era := z / 146097
  let dayOfEra := (z % 146097).toNat
  let yearOfEra := (dayOfEra - dayOfEra / 1460 + dayOfEra / 36524 - dayOfEra / 146096) / 365
  let dayOfYear := dayOfEra - (365 * yearOfEra + yearOfEra / 4 - yearOfEra / 100)
  let shifted := (5 * dayOfYear + 2) / 153
  let month := if shifted < 10 then shifted + 3 else shifted - 9
  let year := (yearOfEra : Int) + era * 400
  ⟨if month ≤ 2 then year + 1 else year, month, dayOfYear - (153 * shifted + 2) / 5 + 1⟩

/-- The number of days from the first of January 1970 to a day. -/
def Date.toDays (d : Date) : Int :=
  let y := if d.month ≤ 2 then d.year - 1 else d.year
  let era := y / 400
  let yearOfEra := y % 400
  let shifted : Int := if d.month ≤ 2 then d.month + 9 else d.month - 3
  let dayOfYear := (153 * shifted + 2) / 5 + d.day - 1
  let dayOfEra := yearOfEra * 365 + yearOfEra / 4 - yearOfEra / 100 + dayOfYear
  era * 146097 + dayOfEra - 719468

/-- Whether a year has 366 days. -/
def isLeapYear (y : Int) : Bool := y % 4 == 0 && (y % 100 != 0 || y % 400 == 0)

/-- The number of days of a month. -/
def daysInMonth (year : Int) (month : Nat) : Nat :=
  if month = 2 then if isLeapYear year then 29 else 28
  else if month = 4 ∨ month = 6 ∨ month = 9 ∨ month = 11 then 30
  else 31

/-- Decimal digits with leading zeros up to a width. -/
def padded (width n : Nat) : String :=
  let ds := Nat.toDigits 10 n
  String.ofList (List.replicate (width - ds.length) '0' ++ ds)

/-- Four digits for the years 0 to 9999, a sign and at least four digits for others. -/
def yearText (y : Int) : String :=
  if 0 ≤ y ∧ y ≤ 9999 then padded 4 y.toNat
  else (if y < 0 then "-" else "+") ++ padded 4 y.natAbs

/-- The decimals of a second with their point. -/
def decimalsText (nanos : Nat) : String :=
  if nanos = 0 then ""
  else if nanos % 1000000 = 0 then "." ++ padded 3 (nanos / 1000000)
  else if nanos % 1000 = 0 then "." ++ padded 6 (nanos / 1000)
  else "." ++ padded 9 nanos

/-- Date and time without the offset from universal time. A leap second is the sixtieth of its
minute. -/
def localText (t : Timestamp) : String :=
  let date := Date.ofDays (t.seconds / 86400)
  let second := (t.seconds % 86400).toNat
  let leap := t.nanos / 1000000000
  yearText date.year ++ "-" ++ padded 2 date.month ++ "-" ++ padded 2 date.day ++ "T" ++
    padded 2 (second / 3600) ++ ":" ++ padded 2 (second / 60 % 60) ++ ":" ++
    padded 2 (second % 60 + leap) ++ decimalsText (t.nanos % 1000000000)

/-- The text with `Z` for universal time. -/
def text (t : Timestamp) : String := t.localText ++ "Z"

/-- The text with a numeric offset. -/
def textWithOffset (t : Timestamp) : String := t.localText ++ "+00:00"

/-- The nanoseconds since the epoch if they fit into 64 bits. -/
def nanos64? (t : Timestamp) : Option Int :=
  let n := t.toNanos
  if -(Int.pow 2 63) ≤ n ∧ n < Int.pow 2 63 then some n else none

end Timestamp

end EditorBridge
