import VersionedModel.Binary64.Rounding

/-!
# Shortest decimal digits

`Binary64.shortest` gives a finite number the fewest decimal digits that read back as it, and of
several decimals with that many digits the one nearest to it. A `TieRule` settles which of two
equally near ones it is, and a `Layout` says how the digits are set out as text.
-/

namespace VersionedModel

namespace Binary64

/-- A finite magnitude as a quotient of natural numbers. -/
def ratio (m : Nat) : Nat × Nat :=
  match exponent m with
  | .ofNat k => (significand m * Nat.pow 2 k, 1)
  | .negSucc k => (significand m, Nat.pow 2 (k + 1))

/-- `10 ^ k` as a factor of a numerator and of a denominator. -/
def tenPower (k : Int) : Nat × Nat :=
  match k with
  | .ofNat k => (Nat.pow 10 k, 1)
  | .negSucc k => (1, Nat.pow 10 (k + 1))

/-- The exponent of the leading decimal digit of `n / d`, for a positive quotient. -/
def leadingExponent (n d : Nat) : Int :=
  let e : Int := (digitCount n : Int) - digitCount d
  let (p, q) := tenPower e
  if n * q < d * p then e - 1 else e

/-- Which of two equally near decimals stands for a number. -/
inductive TieRule where
  /-- The one whose last digit is even. -/
  | even
  /-- The one farther from zero. -/
  | away
  deriving DecidableEq, Repr

/-- Whether a quotient that lies halfway between `q` and `q + 1` goes to the latter. -/
def TieRule.takesUpper (ties : TieRule) (q : Nat) : Bool :=
  match ties with
  | .even => q % 2 == 1
  | .away => true

/-- Whether the quotient of `n` by `d` is rounded up to the next integer. -/
def TieRule.roundsUp (ties : TieRule) (n d : Nat) : Bool :=
  let r := n % d
  decide (d < 2 * r) || (2 * r == d && ties.takesUpper (n / d))

/-- The better of the two neighbours of `n / d` among the multiples of `10 ^ unit`, if one of them
reads back as the magnitude `m`: the nearer one, and on a tie the one that the rule names. -/
def neighbour? (ties : TieRule) (m n d : Nat) (unit : Int) : Option Decimal :=
  let (p, q) := tenPower unit
  let (a, b) := (n * q, d * p)
  let below : Decimal := ⟨false, a / b, unit⟩
  let above : Decimal := ⟨false, a / b + 1, unit⟩
  let readsBack (c : Decimal) : Bool := ofDecimal c == ofMagnitude false m
  match readsBack below, readsBack above with
  | true, true => some (if ties.roundsUp a b then above else below)
  | true, false => some below
  | false, true => some above
  | false, false => none

/-- The exact decimal value of a magnitude. -/
def exactDecimal (m : Nat) : Decimal :=
  match exponent m with
  | .ofNat k => ⟨false, significand m * Nat.pow 2 k, 0⟩
  | .negSucc k => ⟨false, significand m * Nat.pow 5 (k + 1), -(k + 1)⟩

/-- The first hit on the grids that show `count`, `count + 1`, … digits, of `left` grids. -/
def searchDigits (ties : TieRule) (m n d : Nat) (lead : Int) (count : Nat) : Nat → Decimal
  | 0 => exactDecimal m
  | left + 1 =>
    match neighbour? ties m n d (lead - count + 1) with
    | some hit => hit
    | none => searchDigits ties m n d lead (count + 1) left

/-- The fewest digits that read back as a positive finite magnitude. Seventeen always do. -/
def shortest (ties : TieRule) (m : Nat) : Decimal :=
  let (n, d) := ratio m
  searchDigits ties m n d (leadingExponent n d) 1 17

/-! ### Layout -/

/-- How a number is shown in decimal digits. -/
structure Layout where
  /-- Which of two equally near decimals is shown. -/
  ties : TieRule
  /-- The least exponent of the leading digit that is written out in zeros. -/
  lowest : Int
  /-- The greatest exponent of the leading digit that is written out in full. -/
  highest : Int
  /-- Whether a positive exponent carries a plus sign. -/
  plusSign : Bool

/-- Digits without the zeros at their end. -/
def trimZeros (digits : List Char) : List Char :=
  (digits.reverse.dropWhile (· == '0')).reverse

/-- Digits with the decimal point behind the digit for `10 ^ 0`, and at least one place. -/
def positional (digits : List Char) (lead : Int) : List Char :=
  match lead with
  | .ofNat k =>
    let whole := digits.take (k + 1)
    let places := digits.drop (k + 1)
    whole ++ List.replicate (k + 1 - whole.length) '0' ++
      '.' :: if places.isEmpty then ['0'] else places
  | .negSucc k => '0' :: '.' :: List.replicate k '0' ++ digits

/-- Digits with the decimal point behind the first one, and an exponent. -/
def scientific (plusSign : Bool) (digits : List Char) (lead : Int) : List Char :=
  let places := digits.drop 1
  digits.take 1 ++ (if places.isEmpty then [] else '.' :: places) ++
    'e' :: (if lead < 0 then ['-'] else if plusSign then ['+'] else []) ++
      Nat.toDigits 10 lead.natAbs

/-- The text of a number. -/
def render (layout : Layout) : Binary64 → String
  | .nan => "NaN"
  | .number negative m =>
    let body :=
      if m.val = infinite then ['i', 'n', 'f']
      else if m.val = 0 then ['0', '.', '0']
      else
        let d := shortest layout.ties m
        let digits := Nat.toDigits 10 d.coefficient
        let lead := d.exponent + digits.length - 1
        let digits := trimZeros digits
        if layout.lowest ≤ lead ∧ lead ≤ layout.highest then positional digits lead
        else scientific layout.plusSign digits lead
    String.ofList ((if negative then ['-'] else []) ++ body)

end Binary64

end VersionedModel
