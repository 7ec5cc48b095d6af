import Mathlib.Algebra.Order.Field.Power
import Mathlib.Algebra.Order.Floor.Semifield
import Mathlib.Data.Int.Log
import Mathlib.Data.Rat.Floor
import Mathlib.Tactic.FieldSimp
import Mathlib.Tactic.Linarith
import Mathlib.Tactic.NormNum
import Mathlib.Tactic.Positivity
import Mathlib.Tactic.Ring
import VersionedModel.Binary64.Shortest

/-!
# What decimals are read as

Reading a decimal depends on its value alone, however it is written (`Binary64.ofDecimal_eq`): the
scaling, the quotients of natural numbers and the shortcuts for lengths out of range are all ways to
compute one function of a rational number, `Binary64.nearest`. That function gives the value of a
magnitude back as the magnitude (`Binary64.nearest_value`), so the shortest digits of a number read
back as that number (`Binary64.ofDecimal_shortest`).
-/

namespace VersionedModel

namespace Binary64

/-! ### Rounding as a function of the value -/

/-- A rational number rounded to the nearest natural number, a half to the even neighbour. -/
def roundEven (x : ℚ) : ℕ :=
  let q := ⌊x⌋₊
  if 2 * (x - q) < 1 then q else if 1 < 2 * (x - q) then q + 1 else q + q % 2

/-- The power of two that a number near `x` counts in. -/
def unitOf (x : ℚ) : ℤ := max (Int.log 2 x - 52) (-1074)

/-- The magnitude nearest to `x`. -/
def nearest (x : ℚ) : ℕ :=
  if x = 0 then 0 else (unitOf x + 1074).toNat * fractions + roundEven (x / 2 ^ unitOf x)

theorem roundEven_natCast (n : ℕ) : roundEven n = n := by
  simp [roundEven]

theorem roundEven_of_lt {x : ℚ} (h : 2 * x < 1) : roundEven x = 0 := by
  have hq : ⌊x⌋₊ = 0 := Nat.floor_eq_zero.2 (by linarith)
  rw [roundEven, hq]
  simp [h]

theorem floor_le_roundEven (x : ℚ) : ⌊x⌋₊ ≤ roundEven x := by
  rw [roundEven]
  split
  · exact le_rfl
  · split <;> omega

theorem divideToEven_eq (n : ℕ) {d : ℕ} (hd : 0 < d) : divideToEven n d = roundEven (n / d) := by
  have hd' : (0 : ℚ) < d := by exact_mod_cast hd
  have hfrac : (n : ℚ) / d - (n / d : ℕ) = (n % d : ℕ) / d := by
    have : (n : ℚ) = d * (n / d : ℕ) + (n % d : ℕ) := by exact_mod_cast (Nat.div_add_mod n d).symm
    field_simp
    linarith
  have hlow : 2 * ((n : ℚ) / d - (n / d : ℕ)) < 1 ↔ 2 * (n % d) < d := by
    rw [hfrac, ← mul_div_assoc, div_lt_one hd']
    norm_cast
  have hhigh : 1 < 2 * ((n : ℚ) / d - (n / d : ℕ)) ↔ d < 2 * (n % d) := by
    rw [hfrac, ← mul_div_assoc, one_lt_div hd']
    norm_cast
  rw [divideToEven, roundEven, Nat.floor_div_eq_div]
  simp only [hlow, hhigh]

theorem scaled_pos (n : ℕ) {d : ℕ} (hd : 0 < d) (power : ℤ) : 0 < (scaled n d power).2 := by
  cases power with
  | ofNat k => exact Nat.mul_pos hd (Nat.pow_pos (by norm_num))
  | negSucc k => exact hd

/-- Scaling divides by the power of two. -/
theorem scaled_eq (n d : ℕ) (power : ℤ) :
    ((scaled n d power).1 : ℚ) / (scaled n d power).2 = n / d / 2 ^ power := by
  cases power with
  | ofNat k =>
    rw [scaled, Int.ofNat_eq_natCast, zpow_natCast, div_div, Nat.pow_eq]
    push_cast
    rfl
  | negSucc k =>
    rw [scaled, zpow_negSucc, div_inv_eq_mul, div_mul_eq_mul_div, Nat.pow_eq]
    push_cast
    rfl

/-- An integer logarithm from the powers on both sides. -/
theorem log_eq {b : ℕ} (hb : 1 < b) {x : ℚ} {e : ℤ} (h₁ : (b : ℚ) ^ e ≤ x)
    (h₂ : x < (b : ℚ) ^ (e + 1)) : Int.log b x = e := by
  have hx : 0 < x := lt_of_lt_of_le (zpow_pos (by exact_mod_cast (by omega : 0 < b)) e) h₁
  have hle := (Int.zpow_le_iff_le_log hb hx).1 h₁
  have hlt := (Int.lt_zpow_iff_log_lt hb hx).1 h₂
  omega

theorem two_zpow_pos (e : ℤ) : (0 : ℚ) < 2 ^ e := zpow_pos (by norm_num) e

theorem log2_bounds {n : ℕ} (hn : 0 < n) :
    (2 : ℚ) ^ (n.log2 : ℤ) ≤ n ∧ (n : ℚ) < 2 ^ (n.log2 + 1 : ℤ) := by
  have h₁ := Nat.log2_self_le (n := n) (by omega)
  have h₂ := Nat.lt_log2_self (n := n)
  constructor
  · rw [zpow_natCast]
    exact_mod_cast h₁
  · rw [show ((n.log2 : ℤ) + 1) = ((n.log2 + 1 : ℕ) : ℤ) by push_cast; rfl, zpow_natCast]
    exact_mod_cast h₂

/-- A quotient lies within a factor of two of the quotient of the leading bits. -/
theorem quotient_bounds {n d : ℕ} (hn : 0 < n) (hd : 0 < d) :
    (2 : ℚ) ^ ((n.log2 : ℤ) - d.log2 - 1) ≤ n / d ∧
      (n : ℚ) / d < 2 ^ ((n.log2 : ℤ) - d.log2 + 1) := by
  obtain ⟨hn₁, hn₂⟩ := log2_bounds hn
  obtain ⟨hd₁, hd₂⟩ := log2_bounds hd
  have hd' : (0 : ℚ) < d := by exact_mod_cast hd
  constructor
  · rw [le_div_iff₀ hd', show ((n.log2 : ℤ) - d.log2 - 1) = n.log2 - (d.log2 + 1) by ring,
      zpow_sub₀ (by norm_num), div_mul_eq_mul_div, div_le_iff₀ (two_zpow_pos _)]
    exact mul_le_mul hn₁ hd₂.le hd'.le (Nat.cast_nonneg n)
  · rw [div_lt_iff₀ hd', show ((n.log2 : ℤ) - d.log2 + 1) = (n.log2 + 1) - d.log2 by ring,
      zpow_sub₀ (by norm_num), div_mul_eq_mul_div, lt_div_iff₀ (two_zpow_pos _)]
    exact mul_lt_mul hn₂ hd₁ (two_zpow_pos _) (two_zpow_pos _).le

theorem unitOfRatio_eq {n d : ℕ} (hn : 0 < n) (hd : 0 < d) :
    unitOfRatio n d = unitOf (n / d) := by
  obtain ⟨hlow, hhigh⟩ := quotient_bounds hn hd
  rw [unitOfRatio, unitOf]
  dsimp only
  generalize he : (n.log2 : ℤ) - d.log2 = e at hlow hhigh ⊢
  have hq := scaled_pos n hd e
  have hq' : (0 : ℚ) < (scaled n d e).2 := by exact_mod_cast hq
  -- The leading bits leave two powers to choose from; comparing with the greater one decides.
  have hcompare : (scaled n d e).1 < (scaled n d e).2 ↔ (n : ℚ) / d < 2 ^ e := by
    rw [← Nat.cast_lt (α := ℚ), ← div_lt_one hq', scaled_eq, div_lt_one (two_zpow_pos e)]
  by_cases h : (scaled n d e).1 < (scaled n d e).2
  · have hlog : Int.log 2 ((n : ℚ) / d) = e - 1 :=
      log_eq (by norm_num) (by exact_mod_cast hlow) (by simpa using hcompare.1 h)
    rw [if_pos h, hlog]
    congr 1
    ring
  · have hlog : Int.log 2 ((n : ℚ) / d) = e :=
      log_eq (by norm_num) (by simpa using not_lt.1 (mt hcompare.2 h)) (by exact_mod_cast hhigh)
    rw [if_neg h, hlog]

/-- **The magnitude of a quotient is a function of its value.** -/
theorem magnitudeOfRatio_eq (n : ℕ) {d : ℕ} (hd : 0 < d) :
    magnitudeOfRatio n d = nearest (n / d) := by
  rw [magnitudeOfRatio, nearest]
  by_cases hn : n = 0
  · simp [hn]
  · have hn' : 0 < n := Nat.pos_of_ne_zero hn
    have hx : (n : ℚ) / d ≠ 0 := by positivity
    rw [if_neg hn, if_neg hx]
    dsimp only
    rw [unitOfRatio_eq hn' hd, divideToEven_eq _ (scaled_pos n hd _), scaled_eq]

/-! ### Numbers out of range -/

theorem nearest_of_small {x : ℚ} (h₀ : 0 ≤ x) (h : x < 2 ^ (-1075 : ℤ)) : nearest x = 0 := by
  rw [nearest]
  by_cases hx : x = 0
  · rw [if_pos hx]
  · have hpos : 0 < x := lt_of_le_of_ne h₀ (Ne.symm hx)
    have hlog : Int.log 2 x < -1075 :=
      (Int.lt_zpow_iff_log_lt (by norm_num) hpos).1 (by simpa using h)
    have hunit : unitOf x = -1074 := by
      rw [unitOf]
      exact max_eq_right (by omega)
    have hhalf : 2 * (x / 2 ^ (-1074 : ℤ)) < 1 := by
      rw [← mul_div_assoc, div_lt_one (two_zpow_pos _),
        show (-1074 : ℤ) = 1 + -1075 by norm_num, zpow_add₀ (by norm_num), zpow_one]
      linarith
    rw [if_neg hx, hunit, roundEven_of_lt hhalf]
    norm_num

/-- Scaled to its unit, a number that is not small has 53 bits before the point. -/
theorem le_roundEven {x : ℚ} (hx : 0 < x) (h : -1022 ≤ Int.log 2 x) :
    fractions ≤ roundEven (x / 2 ^ unitOf x) := by
  have hunit : unitOf x = Int.log 2 x - 52 := by
    rw [unitOf]
    exact max_eq_left (by omega)
  refine le_trans (Nat.le_floor ?_) (floor_le_roundEven _)
  rw [le_div_iff₀ (two_zpow_pos _), hunit]
  calc ((fractions : ℕ) : ℚ) * 2 ^ (Int.log 2 x - 52) = 2 ^ Int.log 2 x := by
        rw [zpow_sub₀ (by norm_num), fractions]
        norm_num
        ring
    _ ≤ x := by simpa using Int.zpow_log_le_self (b := 2) (by norm_num) hx

theorem infinite_le_nearest {x : ℚ} (h : 2 ^ (1024 : ℤ) ≤ x) : infinite ≤ nearest x := by
  have hpos : 0 < x := lt_of_lt_of_le (two_zpow_pos _) h
  have hlog : 1024 ≤ Int.log 2 x := (Int.zpow_le_iff_le_log (by norm_num) hpos).1 (by simpa using h)
  have hunit : 972 ≤ unitOf x := by
    rw [unitOf]
    omega
  have hround := le_roundEven hpos (by omega)
  have hexp : 2046 ≤ (unitOf x + 1074).toNat := by omega
  rw [nearest, if_neg hpos.ne']
  calc infinite = 2046 * fractions + fractions := by rfl
    _ ≤ (unitOf x + 1074).toNat * fractions + roundEven (x / 2 ^ unitOf x) :=
      Nat.add_le_add (Nat.mul_le_mul_right _ hexp) hround

/-! ### Decimals -/

/-- The absolute value of a decimal. -/
def Decimal.value (d : Decimal) : ℚ := d.coefficient * 10 ^ d.exponent

theorem digitCount_pos (n : ℕ) : 0 < digitCount n := Nat.length_toDigits_pos

theorem lt_pow_digitCount (n : ℕ) : n < 10 ^ digitCount n :=
  (Nat.length_toDigits_le_iff (by norm_num) (digitCount_pos n)).1 le_rfl

theorem pow_digitCount_le {n : ℕ} (hn : 0 < n) : 10 ^ (digitCount n - 1) ≤ n := by
  by_cases h : digitCount n = 1
  · rw [h]
    exact hn
  · have := digitCount_pos n
    by_contra hlt
    have := (Nat.length_toDigits_le_iff (b := 10) (n := n) (k := digitCount n - 1) (by norm_num)
      (by omega)).2 (by omega)
    change digitCount n ≤ digitCount n - 1 at this
    omega

/-- The length of a decimal bounds its value from both sides. -/
theorem Decimal.value_lt (d : Decimal) :
    d.value < 10 ^ (d.exponent + digitCount d.coefficient) := by
  have h : (d.coefficient : ℚ) < 10 ^ (digitCount d.coefficient : ℤ) := by
    rw [zpow_natCast]
    exact_mod_cast lt_pow_digitCount d.coefficient
  rw [Decimal.value, zpow_add₀ (by norm_num), mul_comm]
  exact mul_lt_mul_of_pos_left h (zpow_pos (by norm_num) _)

theorem Decimal.le_value {d : Decimal} (hd : 0 < d.coefficient) :
    10 ^ (d.exponent + digitCount d.coefficient - 1) ≤ d.value := by
  have h : (10 : ℚ) ^ ((digitCount d.coefficient - 1 : ℕ) : ℤ) ≤ d.coefficient := by
    rw [zpow_natCast]
    exact_mod_cast pow_digitCount_le hd
  have := digitCount_pos d.coefficient
  rw [Decimal.value, show d.exponent + digitCount d.coefficient - 1 =
    ((digitCount d.coefficient - 1 : ℕ) : ℤ) + d.exponent by omega, zpow_add₀ (by norm_num)]
  exact mul_le_mul_of_nonneg_right h (zpow_pos (by norm_num) _).le

theorem two_pow_le_ten_pow : (2 : ℚ) ^ (1075 : ℤ) ≤ 10 ^ (330 : ℤ) := by
  calc (2 : ℚ) ^ (1075 : ℤ) ≤ 2 ^ (33 * 33 : ℤ) := zpow_le_zpow_right₀ (by norm_num) (by norm_num)
    _ = (2 ^ 33) ^ 33 := by rw [zpow_mul]; rfl
    _ ≤ (10 ^ 10) ^ 33 := pow_le_pow_left₀ (by norm_num) (by norm_num) 33
    _ = 10 ^ (10 * 33 : ℤ) := by rw [zpow_mul]; rfl

theorem two_pow_1024_le : (2 : ℚ) ^ (1024 : ℤ) ≤ 10 ^ (310 : ℤ) := by
  calc (2 : ℚ) ^ (1024 : ℤ) ≤ 2 ^ (205 * 5 : ℤ) := zpow_le_zpow_right₀ (by norm_num) (by norm_num)
    _ = (2 ^ 205) ^ 5 := by rw [zpow_mul]; rfl
    _ ≤ (10 ^ 62) ^ 5 := pow_le_pow_left₀ (by norm_num) (by norm_num) 5
    _ = 10 ^ (62 * 5 : ℤ) := by rw [zpow_mul]; rfl

theorem Decimal.value_nonneg (d : Decimal) : 0 ≤ d.value := by
  rw [Decimal.value]
  positivity

/-- **A decimal is read by its value**, however it is written. -/
theorem ofDecimal_eq (d : Decimal) : ofDecimal d = ofMagnitude d.negative (nearest d.value) := by
  rw [ofDecimal]
  -- Zeros, tiny and huge decimals are settled by their length, without any division.
  by_cases hzero : d.coefficient = 0
  · rw [if_pos (.inl hzero), Decimal.value, hzero]
    simp [nearest]
  by_cases hsmall : d.exponent + digitCount d.coefficient < -330
  · have hvalue : d.value < 2 ^ (-1075 : ℤ) := by
      refine d.value_lt.trans_le (le_trans (zpow_le_zpow_right₀ (by norm_num) hsmall.le) ?_)
      rw [zpow_neg, zpow_neg]
      exact inv_anti₀ (two_zpow_pos _) two_pow_le_ten_pow
    rw [if_pos (.inr hsmall), nearest_of_small d.value_nonneg hvalue]
  rw [if_neg (by simp [hzero, hsmall])]
  by_cases hlarge : 310 < d.exponent + digitCount d.coefficient
  · have hvalue : 2 ^ (1024 : ℤ) ≤ d.value :=
      calc (2 : ℚ) ^ (1024 : ℤ) ≤ 10 ^ (310 : ℤ) := two_pow_1024_le
        _ ≤ 10 ^ (d.exponent + digitCount d.coefficient - 1) :=
          zpow_le_zpow_right₀ (by norm_num) (by omega)
        _ ≤ d.value := Decimal.le_value (Nat.pos_of_ne_zero hzero)
    rw [if_pos hlarge, ofMagnitude, ofMagnitude]
    simp [infinite_le_nearest hvalue]
  rw [if_neg hlarge, Decimal.value]
  -- What is left is a product or a quotient of integers.
  cases he : d.exponent with
  | ofNat k =>
    dsimp only
    rw [ofRatio, magnitudeOfRatio_eq _ Nat.one_pos, Int.ofNat_eq_natCast, zpow_natCast, Nat.pow_eq]
    push_cast
    rw [div_one]
  | negSucc k =>
    dsimp only
    rw [ofRatio, Nat.pow_eq, magnitudeOfRatio_eq _ (Nat.pow_pos (by norm_num)), zpow_negSucc,
      ← div_eq_mul_inv]
    push_cast
    rfl

/-! ### Exact values -/

/-- The value of a finite magnitude. -/
def value (m : ℕ) : ℚ := significand m * 2 ^ exponent m

theorem value_pos {m : ℕ} (hm : 0 < m) : 0 < value m := by
  have hs : 0 < significand m := by
    rw [significand]
    split
    · exact hm
    · exact Nat.add_pos_left (by decide) _
  rw [value]
  exact mul_pos (by exact_mod_cast hs) (two_zpow_pos _)

/-- A value counts in its own exponent's power of two. -/
theorem unitOf_value {m : ℕ} (hm : 0 < m) : unitOf (value m) = exponent m := by
  have hvalue := value_pos hm
  have hpow := two_zpow_pos (exponent m)
  rw [unitOf]
  by_cases h : m < fractions
  · -- Below the normal numbers all values count in the same power.
    have he : exponent m = -1074 := by rw [exponent, if_pos h]
    have hlog : Int.log 2 (value m) < -1022 := by
      refine (Int.lt_zpow_iff_log_lt (by norm_num) hvalue).1 ?_
      rw [value, he, significand, if_pos h]
      calc (m : ℚ) * 2 ^ (-1074 : ℤ) < 2 ^ (52 : ℤ) * 2 ^ (-1074 : ℤ) :=
            mul_lt_mul_of_pos_right (by rw [fractions] at h; exact_mod_cast h) (two_zpow_pos _)
        _ = ((2 : ℕ) : ℚ) ^ (-1022 : ℤ) := by rw [← zpow_add₀ (by norm_num)]; rfl
    rw [he]
    exact max_eq_right (by omega)
  · -- A normal number has a significand of 53 bits.
    have he : exponent m = (m / fractions : ℕ) - 1075 := by rw [exponent, if_neg h]
    have hlow : 2 ^ 52 ≤ significand m := by
      rw [significand, if_neg h, fractions]
      omega
    have hhigh : significand m < 2 ^ 53 := by
      rw [significand, if_neg h, fractions]
      omega
    have hexp : -1074 ≤ exponent m := by
      have : 1 ≤ m / fractions := (Nat.le_div_iff_mul_le (by decide)).2 (by omega)
      omega
    have hlog : Int.log 2 (value m) = 52 + exponent m := by
      refine log_eq (by norm_num) ?_ ?_
      · rw [value, Nat.cast_ofNat, zpow_add₀ (by norm_num)]
        exact mul_le_mul_of_nonneg_right (by exact_mod_cast hlow) hpow.le
      · rw [value, Nat.cast_ofNat, show 52 + exponent m + 1 = 53 + exponent m by ring,
          zpow_add₀ (by norm_num)]
        exact mul_lt_mul_of_pos_right (by exact_mod_cast hhigh) hpow
    rw [hlog, max_eq_left (by omega)]
    ring

/-- **The value of a magnitude is read as the magnitude.** -/
theorem nearest_value (m : ℕ) : nearest (value m) = m := by
  by_cases hm : m = 0
  · subst hm
    simp [nearest, value, significand, fractions]
  have hpos := Nat.pos_of_ne_zero hm
  rw [nearest, if_neg (value_pos hpos).ne', unitOf_value hpos, value,
    mul_div_cancel_right₀ _ (two_zpow_pos _).ne', roundEven_natCast, exponent, significand,
    fractions]
  split <;> omega

theorem value_exactDecimal (m : ℕ) : (exactDecimal m).value = value m := by
  rw [exactDecimal, value]
  cases exponent m with
  | ofNat k =>
    dsimp only [Decimal.value]
    rw [zpow_zero, mul_one, Int.ofNat_eq_natCast, zpow_natCast, Nat.pow_eq]
    push_cast
    rfl
  | negSucc k =>
    dsimp only [Decimal.value]
    rw [zpow_negSucc, Nat.pow_eq, show (-((k : ℤ) + 1)) = Int.negSucc k from rfl, zpow_negSucc]
    push_cast
    rw [show (10 : ℚ) = 5 * 2 by norm_num, mul_pow]
    field_simp

/-! ### Shortest digits -/

theorem ofDecimal_neighbour {ties : TieRule} {m n d : ℕ} {unit : ℤ} {c : Decimal}
    (h : neighbour? ties m n d unit = some c) :
    c.negative = false ∧ ofDecimal c = ofMagnitude false m := by
  rw [neighbour?] at h
  dsimp only at h
  split at h
  · next hbelow habove =>
    rw [beq_iff_eq] at hbelow habove
    split at h <;> cases h
    · exact ⟨rfl, habove⟩
    · exact ⟨rfl, hbelow⟩
  · next hbelow _ =>
    rw [beq_iff_eq] at hbelow
    cases h
    exact ⟨rfl, hbelow⟩
  · next _ habove =>
    rw [beq_iff_eq] at habove
    cases h
    exact ⟨rfl, habove⟩
  · cases h

theorem ofDecimal_exactDecimal (m : ℕ) :
    (exactDecimal m).negative = false ∧ ofDecimal (exactDecimal m) = ofMagnitude false m := by
  have hsign : (exactDecimal m).negative = false := by
    rw [exactDecimal]
    cases exponent m <;> rfl
  refine ⟨hsign, ?_⟩
  rw [ofDecimal_eq, hsign, value_exactDecimal, nearest_value]

theorem ofDecimal_searchDigits (ties : TieRule) (m n d : ℕ) (lead : ℤ) (count left : ℕ) :
    (searchDigits ties m n d lead count left).negative = false ∧
      ofDecimal (searchDigits ties m n d lead count left) = ofMagnitude false m := by
  induction left generalizing count with
  | zero => exact ofDecimal_exactDecimal m
  | succ left ih =>
    rw [searchDigits]
    split
    · next hit => exact ofDecimal_neighbour hit
    · exact ih (count + 1)

/-- **The shortest digits of a number read back as it.** -/
theorem ofDecimal_shortest (ties : TieRule) (m : ℕ) :
    (shortest ties m).negative = false ∧ ofDecimal (shortest ties m) = ofMagnitude false m :=
  ofDecimal_searchDigits ..

theorem ofMagnitude_eq_iff {s : Bool} {m n : ℕ} :
    ofMagnitude s m = ofMagnitude s n ↔ min m infinite = min n infinite := by
  simp [ofMagnitude]

/-- So does every decimal of the same value, with either sign. -/
theorem ofDecimal_of_value_eq (ties : TieRule) {m : ℕ} {d : Decimal}
    (h : d.value = (shortest ties m).value) : ofDecimal d = ofMagnitude d.negative m := by
  obtain ⟨hsign, hread⟩ := ofDecimal_shortest ties m
  rw [ofDecimal_eq, hsign, ofMagnitude_eq_iff] at hread
  rw [ofDecimal_eq, h, ofMagnitude_eq_iff, hread]

theorem shortest_coefficient_pos (ties : TieRule) {m : ℕ} (hm : 0 < m) :
    0 < (shortest ties m).coefficient := by
  refine Nat.pos_of_ne_zero fun hzero => ?_
  obtain ⟨hsign, hread⟩ := ofDecimal_shortest ties m
  rw [ofDecimal, if_pos (.inl hzero), hsign, ofMagnitude_eq_iff] at hread
  have hinfinite : 0 < infinite := by decide
  omega

end Binary64

end VersionedModel
