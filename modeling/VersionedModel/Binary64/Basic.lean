/-!
# Binary floating-point numbers of 64 bits

`Binary64` holds the numbers of the IEEE 754 interchange format of that width, with a single
not-a-number. A number is a sign and a magnitude, and magnitudes are counted in increasing order:
0 is zero, each next natural number is the next larger absolute value, and `Binary64.infinite` is
infinity. With that numbering the low 63 bits of the format are the magnitude itself, and
comparing two numbers is comparing two integers (`Binary64.compare`).
-/

namespace VersionedModel

namespace Binary64

/-- The magnitude of infinity: an exponent field of ones over a zero fraction. -/
def infinite : Nat := 0x7FF0000000000000

/-- The number of magnitudes that share an exponent. -/
def fractions : Nat := 0x10000000000000

/-- The place value of the sign bit. -/
def signPlace : Nat := 0x8000000000000000

end Binary64

/-- A floating-point number of 64 bits. -/
inductive Binary64 where
  /-- Not a number. -/
  | nan
  /-- A sign and an absolute value. -/
  | number (negative : Bool) (magnitude : Fin (Binary64.infinite + 1))
  deriving DecidableEq, Repr

namespace Binary64

/-- The number with a sign and a magnitude; past the last finite magnitude it is infinite. -/
def ofMagnitude (negative : Bool) (m : Nat) : Binary64 :=
  .number negative ⟨min m infinite, Nat.lt_succ_of_le (Nat.min_le_right ..)⟩

/-- Zero. -/
def zero : Binary64 := ofMagnitude false 0

/-- The number that 64 bits encode: a sign bit over a magnitude. -/
def ofBits (bits : UInt64) : Binary64 :=
  if bits.toNat % signPlace ≤ infinite then
    ofMagnitude (decide (signPlace ≤ bits.toNat)) (bits.toNat % signPlace)
  else .nan

/-- The encoding of a number; not-a-number is quiet, positive and without payload. -/
def toBits : Binary64 → UInt64
  | .nan => 0x7FF8000000000000
  | .number negative m => UInt64.ofNat (m.val + if negative then signPlace else 0)

/-- Neither infinite nor not-a-number. -/
def isFinite : Binary64 → Bool
  | .nan => false
  | .number _ m => decide (m.val < infinite)

/-- Zero of either sign. -/
def isZero : Binary64 → Bool
  | .nan => false
  | .number _ m => decide (m.val = 0)

/-! ### Order -/

/-- The place of a signed magnitude on the number line; both zeros have the same. -/
def place (negative : Bool) (m : Nat) : Int :=
  if negative then -(m : Int) else m

/-- Order on the number line; not-a-number is unordered, to itself as well. -/
def compare : Binary64 → Binary64 → Option Ordering
  | .number s m, .number t n => some (Ord.compare (place s m) (place t n))
  | _, _ => none

/-- Equality on the number line: the zeros are equal, and not-a-number equals nothing. -/
def same (x y : Binary64) : Bool :=
  x.compare y == some .eq

@[simp] theorem compare_nan_left (x : Binary64) : compare .nan x = none := rfl

@[simp] theorem compare_nan_right (x : Binary64) : compare x .nan = none := by
  cases x <;> rfl

/-! ### Exact values

A finite magnitude is a significand below `2 ^ 53` times a power of two. -/

/-- The integer factor of a finite magnitude. -/
def significand (m : Nat) : Nat :=
  if m < fractions then m else fractions + m % fractions

/-- The exponent of the power of two of a finite magnitude. -/
def exponent (m : Nat) : Int :=
  if m < fractions then -1074 else (m / fractions : Nat) - 1075

end Binary64

end VersionedModel
