import EditorBridge.Number.Binary64
/-!
# The shortest decimal of a binary number

Of all decimals that read back as a given number, those with the fewest digits,
and of these the nearest. Grids of 1, 2, … 17 digits are tried in turn; on each
only the two neighbours of the number can be the nearest point.

In text a number is written positionally while its leading digit stands for
`10^k` with `-5 ≤ k ≤ 15`, and with a signed exponent otherwise.
-/

namespace EditorBridge.Binary64

/-- A decimal `digits · 10^exp`. -/
structure Decimal where
  digits : Nat
  exp : Int
  deriving DecidableEq, Repr

/-- `a · 10^e` as a quotient. -/
def Decimal.toQuotient (d : Decimal) : Nat × Nat :=
  if 0 ≤ d.exp then (d.digits * Nat.pow 10 d.exp.toNat, 1) else (d.digits, Nat.pow 10 (-d.exp).toNat)

/-- `m · 2^q` as a quotient. -/
def dyadic (m : Nat) (q : Int) : Nat × Nat :=
  if 0 ≤ q then (m * Nat.pow 2 q.toNat, 1) else (m, Nat.pow 2 (-q).toNat)

/-- `a ≤ b`, or `a < b` when the ends are excluded. -/
def below (inclusive : Bool) (a b : Nat × Nat) : Bool :=
  if inclusive then a.1 * b.2 ≤ b.1 * a.2 else a.1 * b.2 < b.1 * a.2

/-- Whether a decimal lies in the interval of reals that round to `m · 2^q`. The gap below a
power of two is half the gap above it; the ends belong to even significands. -/
def readsBack (m : Nat) (q : Int) (d : Decimal) : Bool :=
  let v := d.toQuotient
  let ends := m % 2 == 0
  let low :=
    if m = Nat.pow 2 52 ∧ -1074 < q then dyadic (4 * m - 1) (q - 2) else dyadic (2 * m - 1) (q - 1)
  below ends low v && below ends v (dyadic (2 * m + 1) (q - 1))

/-- The distance of a decimal from `m · 2^q`, over a common denominator that depends only on the
denominators of the two. -/
def distance (m : Nat) (q : Int) (d : Decimal) : Nat :=
  let (a, b) := d.toQuotient
  let (n, e) := dyadic m q
  (a * e - n * b) + (n * b - a * e)

/-- The exponent of the leading decimal digit of `num / den`. -/
def leading (num den : Nat) : Int :=
  let guess : Int := (digitCount num : Int) - digitCount den
  let (a, b) := (Decimal.mk 1 guess).toQuotient
  if num * b < a * den then guess - 1 else guess

/-- The two points of the grid `10^exp` around `num / den`. -/
def neighbours (num den : Nat) (exp : Int) : Decimal × Decimal :=
  let below := if 0 ≤ exp then num / (den * Nat.pow 10 exp.toNat) else num * Nat.pow 10 (-exp).toNat / den
  (⟨below, exp⟩, ⟨below + 1, exp⟩)

/-- The nearest point of one grid that reads back, of two equally near the even one. -/
def onGrid (m : Nat) (q : Int) (exp : Int) : Option Decimal :=
  let (num, den) := dyadic m q
  let (lo, hi) := neighbours num den exp
  match readsBack m q lo, readsBack m q hi with
  | true, true =>
    let a := distance m q lo
    let b := distance m q hi
    if a < b ∨ (a = b ∧ lo.digits % 2 = 0) then some lo else some hi
  | true, false => some lo
  | false, true => some hi
  | false, false => none

/-- The shortest decimal for `m · 2^q` with `m` positive. -/
def shortest (m : Nat) (q : Int) : Decimal :=
  let (num, den) := dyadic m q
  let k := leading num den
  ((List.range 17).findSome? fun (n : Nat) => onGrid m q (k - n)).getD ⟨num, 0⟩

/-- A decimal without trailing zeros in its digits. -/
def stripZeros : Nat → Decimal → Decimal
  | 0, d => d
  | fuel + 1, d =>
    if d.digits ≠ 0 ∧ d.digits % 10 = 0 then stripZeros fuel ⟨d.digits / 10, d.exp + 1⟩ else d

/-- The text of `digits · 10^exp` with `digits` positive: positional for leading exponents
-5 to 15, scientific otherwise. -/
def decimalText (d : Decimal) : List Char :=
  let ds := Nat.toDigits 10 d.digits
  let k : Int := d.exp + ds.length - 1
  if -5 ≤ k ∧ k ≤ 15 then
    if 0 ≤ d.exp then ds ++ List.replicate d.exp.toNat '0' ++ ['.', '0']
    else if 0 ≤ k then
      let whole := (k + 1).toNat
      ds.take whole ++ '.' :: ds.drop whole
    else '0' :: '.' :: List.replicate (-k - 1).toNat '0' ++ ds
  else
    let tail := if ds.length = 1 then [] else '.' :: ds.drop 1
    let sign := if k < 0 then '-' else '+'
    ds.take 1 ++ tail ++ 'e' :: sign :: Nat.toDigits 10 k.natAbs

/-- The text of a number; one that is not finite has no text of its own and is written `null`. -/
def text (x : Binary64) : List Char :=
  if !x.isFinite then "null".toList
  else
    let sign := if x.negative then ['-'] else []
    if x.significand = 0 then sign ++ "0.0".toList
    else sign ++ decimalText (stripZeros 17 (shortest x.significand x.exponent))

end EditorBridge.Binary64
