/-!
# Spans of time

Spans are counted in nanoseconds. In text a span stands in the largest of the
units s, ms, µs and ns that gives it a whole part, with as many decimals as it
needs.
-/

namespace EditorBridge

/-- A length of time, or a moment of the monotonic clock, in nanoseconds. -/
abbrev Nanos := Nat

namespace Nanos

/-- A span of seconds. -/
def ofSecs (s : Nat) : Nanos := s * 1000000000

/-- A span of milliseconds. -/
def ofMillis (ms : Nat) : Nanos := ms * 1000000

/-- Whole seconds of a span. -/
def secs (n : Nanos) : Nat := n / 1000000000

/-- Whole milliseconds of a span. -/
def millis (n : Nanos) : Nat := n / 1000000

/-- The digits of `n` after a decimal point, `width` places long, trailing zeros cut. -/
def decimals (n width : Nat) : List Char :=
  let ds := Nat.toDigits 10 n
  let padded := List.replicate (width - ds.length) '0' ++ ds
  (padded.reverse.dropWhile (· == '0')).reverse

/-- `n / 10^places` with its decimals and a unit. -/
def inUnit (n places : Nat) (unit : String) : String :=
  let whole := toString (n / Nat.pow 10 places)
  let part := n % Nat.pow 10 places
  if part = 0 then whole ++ unit else whole ++ "." ++ String.ofList (decimals part places) ++ unit

/-- The text of a span. -/
def text (n : Nanos) : String :=
  if 1000000000 ≤ n then inUnit n 9 "s"
  else if 1000000 ≤ n then inUnit n 6 "ms"
  else if 1000 ≤ n then inUnit n 3 "µs"
  else inUnit n 0 "ns"

example : text 1500000000 = "1.5s" ∧ text 10010 = "10.01µs" ∧ text 0 = "0ns" := by decide +kernel

end Nanos

end EditorBridge
