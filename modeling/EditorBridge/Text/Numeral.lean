/-!
# Numbers in settings

Decimal integers as they are written in environments and on command lines:
digits after at most one sign, leading zeros allowed, nothing else.
-/

namespace EditorBridge.Text

/-- The number of a non-empty list of digits. -/
def digits? (cs : List Char) : Option Nat :=
  if cs ≠ [] ∧ cs.all Char.isDigit then some (cs.foldl (fun n c => 10 * n + (c.toNat - 48)) 0)
  else none

/-- A number without a minus sign that is below a bound. -/
def natural? (bound : Nat) (s : String) : Option Nat := do
  let n ← digits? (match s.toList with | '+' :: rest => rest | cs => cs)
  if n < bound then some n else none

/-- A number with any sign. -/
def integer? (s : String) : Option Int :=
  match s.toList with
  | '-' :: rest => (digits? rest).map fun n => -(n : Int)
  | '+' :: rest => (digits? rest).map fun n => (n : Int)
  | cs => (digits? cs).map fun n => (n : Int)

end EditorBridge.Text
