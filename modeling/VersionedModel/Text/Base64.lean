/-!
# Base64

Bytes as text in the standard alphabet, with padding. `decode` is strict: it wants the padding,
refuses every character outside the alphabet, and refuses a last digit with bits that no byte
carries, so that `decode_encode` holds and every text has at most one reading.
-/

namespace VersionedModel

namespace Base64

/-- The digit for a number below 64. -/
def digit (n : Nat) : Char :=
  if n < 26 then Char.ofNat (65 + n)
  else if n < 52 then Char.ofNat (71 + n)
  else if n < 62 then Char.ofNat (n - 4)
  else if n = 62 then '+' else '/'

/-- The number that a digit stands for. -/
def value? (c : Char) : Option Nat :=
  if 'A' ≤ c ∧ c ≤ 'Z' then some (c.toNat - 65)
  else if 'a' ≤ c ∧ c ≤ 'z' then some (c.toNat - 71)
  else if '0' ≤ c ∧ c ≤ '9' then some (c.toNat + 4)
  else if c = '+' then some 62
  else if c = '/' then some 63 else none

/-- The digits of a byte sequence, three bytes to four digits, padded to a multiple of four. -/
def encodeChars : List UInt8 → List Char
  | [] => []
  | [a] => [digit (a.toNat / 4), digit (a.toNat % 4 * 16), '=', '=']
  | [a, b] =>
    [digit (a.toNat / 4), digit (a.toNat % 4 * 16 + b.toNat / 16), digit (b.toNat % 16 * 4), '=']
  | a :: b :: c :: rest =>
    digit (a.toNat / 4) :: digit (a.toNat % 4 * 16 + b.toNat / 16) ::
      digit (b.toNat % 16 * 4 + c.toNat / 64) :: digit (c.toNat % 64) :: encodeChars rest

/-- One byte from two digits; the second has four bits too many, which must be zero. -/
def decodeOne (p q : Char) : Option (List UInt8) := do
  let x ← value? p
  let y ← value? q
  if y % 16 = 0 then some [UInt8.ofNat (x * 4 + y / 16)] else none

/-- Two bytes from three digits; the third has two bits too many, which must be zero. -/
def decodeTwo (p q r : Char) : Option (List UInt8) := do
  let x ← value? p
  let y ← value? q
  let z ← value? r
  if z % 4 = 0 then
    some [UInt8.ofNat (x * 4 + y / 16), UInt8.ofNat (y % 16 * 16 + z / 4)]
  else none

/-- Three bytes from four digits. -/
def decodeThree (p q r s : Char) : Option (List UInt8) := do
  let x ← value? p
  let y ← value? q
  let z ← value? r
  let w ← value? s
  some [UInt8.ofNat (x * 4 + y / 16), UInt8.ofNat (y % 16 * 16 + z / 4),
    UInt8.ofNat (z % 4 * 64 + w)]

/-- The bytes that a sequence of digits stands for. -/
def decodeChars : List Char → Option (List UInt8)
  | [] => some []
  | [p, q, '=', '='] => decodeOne p q
  | [p, q, r, '='] => decodeTwo p q r
  | p :: q :: r :: s :: rest => do
    let group ← decodeThree p q r s
    let others ← decodeChars rest
    some (group ++ others)
  | _ => none

/-- A byte sequence as text. -/
def encode (bytes : List UInt8) : String :=
  String.ofList (encodeChars bytes)

/-- The byte sequence that a text stands for, if it is well formed. -/
def decode (s : String) : Option (List UInt8) :=
  decodeChars s.toList

/-! ### Reading undoes writing -/

theorem value?_digit {n : Nat} (h : n < 64) : value? (digit n) = some n := by
  have all : ∀ m : Fin 64, value? (digit m) = some m.val := by decide +kernel
  exact all ⟨n, h⟩

theorem digit_ne_pad {n : Nat} (h : n < 64) : digit n ≠ '=' := by
  have all : ∀ m : Fin 64, digit m ≠ '=' := by decide +kernel
  exact all ⟨n, h⟩

theorem decodeOne_digits (a : UInt8) :
    decodeOne (digit (a.toNat / 4)) (digit (a.toNat % 4 * 16)) = some [a] := by
  have ha := a.toNat_lt
  have e : a.toNat / 4 * 4 + a.toNat % 4 * 16 / 16 = a.toNat := by omega
  have z : a.toNat % 4 * 16 % 16 = 0 := by omega
  simp only [decodeOne, value?_digit (show a.toNat / 4 < 64 by omega),
    value?_digit (show a.toNat % 4 * 16 < 64 by omega), Option.bind_eq_bind, Option.bind_some, z,
    e, if_true, UInt8.ofNat_toNat]

theorem decodeTwo_digits (a b : UInt8) :
    decodeTwo (digit (a.toNat / 4)) (digit (a.toNat % 4 * 16 + b.toNat / 16))
      (digit (b.toNat % 16 * 4)) = some [a, b] := by
  have ha := a.toNat_lt
  have hb := b.toNat_lt
  have e : a.toNat / 4 * 4 + (a.toNat % 4 * 16 + b.toNat / 16) / 16 = a.toNat := by omega
  have f : (a.toNat % 4 * 16 + b.toNat / 16) % 16 * 16 + b.toNat % 16 * 4 / 4 = b.toNat := by
    omega
  have z : b.toNat % 16 * 4 % 4 = 0 := by omega
  simp only [decodeTwo, value?_digit (show a.toNat / 4 < 64 by omega),
    value?_digit (show a.toNat % 4 * 16 + b.toNat / 16 < 64 by omega),
    value?_digit (show b.toNat % 16 * 4 < 64 by omega), Option.bind_eq_bind, Option.bind_some, z, e,
    f, if_true, UInt8.ofNat_toNat]

theorem decodeThree_digits (a b c : UInt8) :
    decodeThree (digit (a.toNat / 4)) (digit (a.toNat % 4 * 16 + b.toNat / 16))
      (digit (b.toNat % 16 * 4 + c.toNat / 64)) (digit (c.toNat % 64)) = some [a, b, c] := by
  have ha := a.toNat_lt
  have hb := b.toNat_lt
  have hc := c.toNat_lt
  have e : a.toNat / 4 * 4 + (a.toNat % 4 * 16 + b.toNat / 16) / 16 = a.toNat := by omega
  have f : (a.toNat % 4 * 16 + b.toNat / 16) % 16 * 16 + (b.toNat % 16 * 4 + c.toNat / 64) / 4 =
      b.toNat := by omega
  have g : (b.toNat % 16 * 4 + c.toNat / 64) % 4 * 64 + c.toNat % 64 = c.toNat := by omega
  simp only [decodeThree, value?_digit (show a.toNat / 4 < 64 by omega),
    value?_digit (show a.toNat % 4 * 16 + b.toNat / 16 < 64 by omega),
    value?_digit (show b.toNat % 16 * 4 + c.toNat / 64 < 64 by omega),
    value?_digit (show c.toNat % 64 < 64 by omega), Option.bind_eq_bind, Option.bind_some, e, f, g,
    UInt8.ofNat_toNat]

theorem decodeChars_group {p q r s : Char} (hs : s ≠ '=') (rest : List Char) :
    decodeChars (p :: q :: r :: s :: rest) =
      (decodeThree p q r s).bind fun g => (decodeChars rest).bind fun o => some (g ++ o) := by
  rw [decodeChars]
  · rfl
  all_goals simp_all

theorem decodeChars_encodeChars (bytes : List UInt8) :
    decodeChars (encodeChars bytes) = some bytes := by
  fun_induction encodeChars bytes with
  | case1 => rfl
  | case2 a => exact decodeOne_digits a
  | case3 a b =>
    have hb := b.toNat_lt
    rw [decodeChars]
    · exact decodeTwo_digits a b
    · intro h
      exact absurd h (digit_ne_pad (by omega))
  | case4 a b c rest ih =>
    rw [decodeChars_group (digit_ne_pad (by omega)), decodeThree_digits, ih]
    rfl

theorem decode_encode (bytes : List UInt8) : decode (encode bytes) = some bytes := by
  simp [decode, encode, decodeChars_encodeChars]

end Base64

end VersionedModel
