import VersionedModel.Binary64.Basic

/-!
# Rounding to the nearest number

`ofRatio` is the number nearest to a quotient of natural numbers, and of two equally near ones the
one with the even significand. Integers (`ofInt`) and decimals (`ofDecimal`) are read through it.
-/

namespace VersionedModel

namespace Binary64

/-- A quotient rounded to the nearest integer, a half to the even neighbour. -/
def divideToEven (n d : Nat) : Nat :=
  let q := n / d
  let r := n % d
  if 2 * r < d then q else if d < 2 * r then q + 1 else q + q % 2

/-- The quotient of `n` by `d` and a power of two, as a numerator and a denominator. -/
def scaled (n d : Nat) (power : Int) : Nat × Nat :=
  match power with
  | .ofNat k => (n, d * Nat.pow 2 k)
  | .negSucc k => (n * Nat.pow 2 (k + 1), d)

/-- The power of two that a number near `n / d` counts in: 53 significant bits, or fewer near
zero. -/
def unitOfRatio (n d : Nat) : Int :=
  let e : Int := (n.log2 : Int) - d.log2
  let (p, q) := scaled n d e
  max (if p < q then e - 53 else e - 52) (-1074)

/-- The magnitude nearest to `n / d`. A significand that rounds up to `2 ^ 53` carries into the
exponent by itself. -/
def magnitudeOfRatio (n d : Nat) : Nat :=
  if n = 0 then 0
  else
    let unit := unitOfRatio n d
    let (p, q) := scaled n d unit
    (unit + 1074).toNat * fractions + divideToEven p q

/-- The number nearest to the quotient of two natural numbers, infinite if that is too large. -/
def ofRatio (negative : Bool) (n d : Nat) : Binary64 :=
  ofMagnitude negative (magnitudeOfRatio n d)

/-- The number nearest to an integer. -/
def ofInt (i : Int) : Binary64 :=
  ofRatio (decide (i < 0)) i.natAbs 1

/-! ### Decimals -/

/-- A decimal number: a sign, a coefficient and the power of ten that it counts in. -/
structure Decimal where
  /-- Whether it is written with a minus sign. -/
  negative : Bool
  /-- The digits as one natural number. -/
  coefficient : Nat
  /-- The power of ten of the last digit. -/
  exponent : Int
  deriving DecidableEq, Repr

/-- The number of decimal digits of a natural number. -/
def digitCount (n : Nat) : Nat :=
  (Nat.toDigits 10 n).length

/-- The number nearest to a decimal. Decimals beyond every finite number or below half the
smallest one are told by their length alone, so that no huge power of ten is ever built. -/
def ofDecimal (d : Decimal) : Binary64 :=
  let top := d.exponent + digitCount d.coefficient
  if d.coefficient = 0 ∨ top < -330 then ofMagnitude d.negative 0
  else if 310 < top then ofMagnitude d.negative infinite
  else
    match d.exponent with
    | .ofNat k => ofRatio d.negative (d.coefficient * Nat.pow 10 k) 1
    | .negSucc k => ofRatio d.negative d.coefficient (Nat.pow 10 (k + 1))

end Binary64

end VersionedModel
