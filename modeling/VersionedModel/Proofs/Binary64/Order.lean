import Mathlib.Order.Compare
import VersionedModel.Proofs.Binary64.Reading

/-!
# Numbers and integers on the number line

Numbers are in the order of their values (`Binary64.compare_eq_some`). Rounding keeps the order of
what it rounds (`Binary64.nearest_mono`) and leaves the values of numbers alone. So an integer that
is rounded for a comparison may be taken for the number that it is rounded to, but apart from that
it is where its value is (`Binary64.compare_ofInt`).
-/

namespace VersionedModel

namespace Binary64

/-! ### Rounding keeps the order -/

theorem roundEven_le (x : ℚ) : roundEven x ≤ ⌊x⌋₊ + 1 := by
  rw [roundEven]
  split
  · omega
  · split <;> omega

theorem roundEven_mono {x y : ℚ} (h : x ≤ y) : roundEven x ≤ roundEven y := by
  rcases (Nat.floor_mono h).lt_or_eq with hlt | heq
  · exact (roundEven_le x).trans (Nat.succ_le_of_lt hlt |>.trans (floor_le_roundEven y))
  · -- Both lie between the same two integers.
    rw [roundEven, roundEven, heq]
    split
    · split
      · exact le_rfl
      · split <;> omega
    · have hx : ¬2 * (y - ⌊y⌋₊) < 1 := by
        intro hy
        linarith
      rw [if_neg hx]
      split
      · rw [if_pos (by linarith)]
      · split <;> omega

/-- Scaled to its unit, a number has at most 53 bits before the point. -/
theorem roundEven_le_of_unit {x : ℚ} (hx : 0 < x) :
    roundEven (x / 2 ^ unitOf x) ≤ 2 * fractions := by
  refine (roundEven_le _).trans (Nat.succ_le_of_lt ?_)
  have hunit : Int.log 2 x + 1 ≤ 53 + unitOf x := by
    rw [unitOf]
    omega
  have hlt : x / 2 ^ unitOf x < (2 * fractions : ℕ) := by
    rw [div_lt_iff₀ (two_zpow_pos _)]
    calc x < 2 ^ (Int.log 2 x + 1) := by
          simpa using Int.lt_zpow_succ_log_self (b := 2) (by norm_num) x
      _ ≤ 2 ^ (53 + unitOf x) := zpow_le_zpow_right₀ (by norm_num) hunit
      _ = (2 * fractions : ℕ) * 2 ^ unitOf x := by
          rw [zpow_add₀ (by norm_num), fractions]
          norm_num
  exact (Nat.floor_lt (div_nonneg hx.le (two_zpow_pos _).le)).2 hlt

/-- **Rounding keeps the order.** -/
theorem nearest_mono {x y : ℚ} (hx : 0 ≤ x) (h : x ≤ y) : nearest x ≤ nearest y := by
  rcases hx.eq_or_lt with rfl | hx
  · simp [nearest]
  have hy := hx.trans_le h
  have hunit : unitOf x ≤ unitOf y :=
    max_le_max_right _ (by linarith [Int.log_mono_right hx h (b := 2)])
  rw [nearest, nearest, if_neg hx.ne', if_neg hy.ne']
  rcases hunit.eq_or_lt with heq | hlt
  · rw [heq]
    exact Nat.add_le_add_left (roundEven_mono (by gcongr)) _
  · -- The greater number counts in a greater unit, of which it has enough.
    have hlow := roundEven_le_of_unit hx
    have hhigh : fractions ≤ roundEven (y / 2 ^ unitOf y) := by
      refine le_roundEven hy ?_
      rw [unitOf, unitOf] at hlt
      omega
    have hstep : (unitOf x + 1074).toNat + 1 ≤ (unitOf y + 1074).toNat := by
      have : -1074 ≤ unitOf x := le_max_right _ _
      omega
    calc (unitOf x + 1074).toNat * fractions + roundEven (x / 2 ^ unitOf x)
        ≤ (unitOf x + 1074).toNat * fractions + 2 * fractions := Nat.add_le_add_left hlow _
      _ = ((unitOf x + 1074).toNat + 1) * fractions + fractions := by ring
      _ ≤ (unitOf y + 1074).toNat * fractions + roundEven (y / 2 ^ unitOf y) :=
        Nat.add_le_add (Nat.mul_le_mul_right _ hstep) hhigh

/-! ### Values -/

theorem value_zero : value 0 = 0 := by
  simp [value, significand, fractions]

/-- The value of a number. Not-a-number has none, and infinity counts as the power of two behind the
finite numbers. -/
def toRat? : Binary64 → Option ℚ
  | .nan => none
  | .number s m => some (if s then -value m else value m)

/-- The place on the number line to which a value is rounded. -/
def rounded (x : ℚ) : ℤ :=
  if x < 0 then -(min (nearest (-x)) infinite : ℕ) else (min (nearest x) infinite : ℕ)

theorem rounded_mono {x y : ℚ} (h : x ≤ y) : rounded x ≤ rounded y := by
  rw [rounded, rounded]
  by_cases hx : x < 0
  · by_cases hy : y < 0
    · have := nearest_mono (by linarith : 0 ≤ -y) (neg_le_neg h)
      rw [if_pos hx, if_pos hy]
      omega
    · rw [if_pos hx, if_neg hy]
      omega
  · have := nearest_mono (not_lt.1 hx) h
    rw [if_neg hx, if_neg (by linarith)]
    omega

/-- Places are in the order of what was rounded to them, as long as nothing else was rounded to the
same place. -/
theorem compare_rounded {x y : ℚ} (h : rounded x = rounded y → x = y) :
    Ord.compare (rounded x) (rounded y) = Ord.compare x y := by
  rcases lt_trichotomy (rounded x) (rounded y) with hlt | heq | hgt
  · have hxy : x < y := lt_of_not_ge fun hle => hlt.not_ge (rounded_mono hle)
    rw [compare_lt_iff_lt.2 hlt, compare_lt_iff_lt.2 hxy]
  · rw [compare_eq_iff_eq.2 heq, compare_eq_iff_eq.2 (h heq)]
  · have hyx : y < x := lt_of_not_ge fun hle => hgt.not_ge (rounded_mono hle)
    rw [compare_gt_iff_gt.2 hgt, compare_gt_iff_gt.2 hyx]

/-- Values of numbers are left alone. -/
theorem rounded_value (s : Bool) {m : ℕ} (hm : m ≤ infinite) :
    rounded (if s then -value m else value m) = place s m := by
  rcases m.eq_zero_or_pos with rfl | hpos
  · cases s <;> simp [rounded, value_zero, nearest, place]
  · have hvalue := value_pos hpos
    cases s
    · simp [rounded, not_lt.2 hvalue.le, nearest_value, place, hm]
    · simp [rounded, hvalue, nearest_value, place, hm]

/-- Numbers at one place have one value. -/
theorem value_eq_of_place_eq {s t : Bool} {m n : ℕ} (h : place s m = place t n) :
    (if s then -value m else value m) = if t then -value n else value n := by
  have hzero : ∀ {i j : ℕ}, -(i : ℤ) = j → i = 0 ∧ j = 0 := by omega
  cases s <;> cases t
  · exact congrArg value (Int.ofNat.inj h)
  · obtain ⟨rfl, rfl⟩ := hzero h.symm
    simp [value_zero]
  · obtain ⟨rfl, rfl⟩ := hzero h
    simp [value_zero]
  · exact congrArg (-value ·) (Int.ofNat.inj (neg_inj.1 h))

/-- **Numbers are in the order of their values.** -/
theorem compare_eq_some {x y : Binary64} {p q : ℚ} (hx : x.toRat? = some p)
    (hy : y.toRat? = some q) : x.compare y = some (Ord.compare p q) := by
  cases x with
  | nan => cases hx
  | number s m =>
    cases y with
    | nan => cases hy
    | number t n =>
      have hm := rounded_value s (Nat.le_of_lt_succ m.2)
      have hn := rounded_value t (Nat.le_of_lt_succ n.2)
      cases hx
      cases hy
      rw [compare, ← compare_rounded, hm, hn]
      rw [hm, hn]
      exact value_eq_of_place_eq

/-- An integer is compared by the place that it is rounded to. -/
theorem exists_ofInt_eq (i : ℤ) : ∃ s m, ofInt i = .number s m ∧ place s m = rounded i := by
  refine ⟨_, _, rfl, ?_⟩
  rw [magnitudeOfRatio_eq _ Nat.one_pos, rounded, place, Nat.cast_one, div_one, Nat.cast_natAbs]
  by_cases hi : i < 0
  · simp [hi, abs_of_neg hi]
  · simp [hi, abs_of_nonneg (not_lt.1 hi)]

/-- **A rounded integer is compared as its value is**, unless it is taken for a number that it is
not. -/
theorem compare_ofInt {i : ℤ} {x : Binary64} {q : ℚ} (hx : x.toRat? = some q)
    (h : (ofInt i).compare x = some .eq → x.toRat? = some (i : ℚ)) :
    (ofInt i).compare x = some (Ord.compare (i : ℚ) q) := by
  obtain ⟨s, m, hi, hplace⟩ := exists_ofInt_eq i
  cases x with
  | nan => cases hx
  | number t n =>
    have hvalue := rounded_value t (Nat.le_of_lt_succ n.2)
    rw [hx, hi, compare, hplace, ← hvalue] at h
    cases hx
    rw [hi, compare, hplace, ← hvalue, compare_rounded]
    intro heq
    exact (Option.some.inj (h (congrArg some (compare_eq_iff_eq.2 heq)))).symm

/-- **Integers of 64 bits are not rounded to infinity.** -/
theorem isFinite_ofInt {i : ℤ} (h : i.natAbs ≤ 2 ^ 63) : (ofInt i).isFinite = true := by
  have hle : magnitudeOfRatio i.natAbs 1 ≤ magnitudeOfRatio (2 ^ 63) 1 := by
    rw [magnitudeOfRatio_eq _ Nat.one_pos, magnitudeOfRatio_eq _ Nat.one_pos]
    refine nearest_mono (by positivity) ?_
    rw [Nat.cast_one, div_one, div_one]
    exact_mod_cast h
  have hlt : magnitudeOfRatio (2 ^ 63) 1 < infinite := by decide
  rw [ofInt, ofRatio, ofMagnitude, isFinite, decide_eq_true_eq]
  exact (min_le_left _ _).trans_lt (hle.trans_lt hlt)

end Binary64

end VersionedModel
