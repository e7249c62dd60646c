/-!
# Binary floating-point numbers

Numbers of the form `± m · 2^q` with 53 significant bits, held as their 64-bit
pattern so that equality is decidable and every statement about them is one
about integers. A decimal is read as the nearest such number, a tie going to
the even significand.
-/

namespace EditorBridge

/-- A double-precision number, by its bit pattern. -/
structure Binary64 where
  bits : UInt64
  deriving DecidableEq, Inhabited, Repr

namespace Binary64

/-- Whether the sign bit is set. -/
def negative (x : Binary64) : Bool := x.bits.toNat / Nat.pow 2 63 == 1

/-- The exponent field, 0 for subnormal numbers and 2047 for infinities and NaNs. -/
def biased (x : Binary64) : Nat := x.bits.toNat / Nat.pow 2 52 % Nat.pow 2 11

/-- The fraction field. -/
def fraction (x : Binary64) : Nat := x.bits.toNat % Nat.pow 2 52

/-- Neither an infinity nor a NaN. -/
def isFinite (x : Binary64) : Bool := x.biased != 2047

/-- The significand `m` of a finite `± m · 2^q`. -/
def significand (x : Binary64) : Nat :=
  if x.biased = 0 then x.fraction else Nat.pow 2 52 + x.fraction

/-- The exponent `q` of a finite `± m · 2^q`. -/
def exponent (x : Binary64) : Int :=
  if x.biased = 0 then -1074 else (x.biased : Int) - 1075

/-- The number with this sign, exponent field and fraction field. -/
def ofFields (negative : Bool) (biased fraction : Nat) : Binary64 :=
  ⟨UInt64.ofNat ((if negative then Nat.pow 2 63 else 0) + biased * Nat.pow 2 52 + fraction)⟩

/-- Zero with a sign. -/
def zero (negative : Bool) : Binary64 := ofFields negative 0 0

/-- The natural number nearest to `num / den`, a half going to the even one. -/
def roundQuotient (num den : Nat) : Nat :=
  let q := num / den
  let twice := 2 * (num % den)
  if twice < den then q
  else if den < twice then q + 1
  else if q % 2 = 0 then q else q + 1

/-- `num / den` scaled by `2^(-q)`, as a quotient of natural numbers. -/
def scale (num den : Nat) (q : Int) : Nat × Nat :=
  if 0 ≤ q then (num, den * Nat.pow 2 q.toNat) else (num * Nat.pow 2 (-q).toNat, den)

/-- The exponent for which `num / den` has 53 bits before the point, but no less than -1074. -/
def chooseExponent (num den : Nat) : Int :=
  let guess : Int := (num.log2 : Int) - (den.log2 : Int) - 52
  let (n, d) := scale num den guess
  let q := if n < Nat.pow 2 52 * d then guess - 1 else guess
  max q (-1074)

/-- The number nearest to `± num / den`; `none` if it is beyond the largest one. -/
def ofQuotient (negative : Bool) (num den : Nat) : Option Binary64 :=
  if num = 0 then some (zero negative)
  else
    let q := chooseExponent num den
    let (n, d) := scale num den q
    let m := roundQuotient n d
    let (m, q) := if m = Nat.pow 2 53 then (Nat.pow 2 52, q + 1) else (m, q)
    if 971 < q then none
    else if m < Nat.pow 2 52 then some (ofFields negative 0 m)
    else some (ofFields negative (q + 1075).toNat (m - Nat.pow 2 52))

/-- The number of decimal digits. -/
def digitCount (n : Nat) : Nat := (Nat.toDigits 10 n).length

/-- The number nearest to `± digits · 10^exp`; `none` if it is beyond the largest one.
Magnitudes far outside the range are settled without computing the power. -/
def ofDecimal (negative : Bool) (digits : Nat) (exp : Int) : Option Binary64 :=
  if digits = 0 then some (zero negative)
  else
    let size := exp + digitCount digits
    if 400 < size then none
    else if size < -400 then some (zero negative)
    else if 0 ≤ exp then ofQuotient negative (digits * Nat.pow 10 exp.toNat) 1
    else ofQuotient negative digits (Nat.pow 10 (-exp).toNat)

/-- A finite number as a signed quotient of natural numbers. -/
def toQuotient (x : Binary64) : Int × Nat :=
  let m : Int := if x.negative then -x.significand else x.significand
  if 0 ≤ x.exponent then (m * Nat.pow 2 x.exponent.toNat, 1) else (m, Nat.pow 2 (-x.exponent).toNat)

/-- A finite number without a fractional part. -/
def isIntegral (x : Binary64) : Bool :=
  let (num, den) := x.toQuotient
  num % den == 0

end Binary64

end EditorBridge
