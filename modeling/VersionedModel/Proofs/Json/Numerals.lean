import Mathlib.Tactic.IntervalCases
import VersionedModel.Json.Printer
import VersionedModel.Json.Written
import VersionedModel.Proofs.Binary64.Reading

/-!
# Numbers as text

The text of a number reads back as the number: an integer as an integer (`Json.number?_integer`),
and a finite float, in whatever layout, as the same float, its sign included
(`Json.exists_numeral_of_render`).
-/

namespace VersionedModel

namespace Json

open Binary64 (Decimal trimZeros positional scientific)

/-! ### Digits -/

theorem natOfDigits_append (ds es : List Char) :
    natOfDigits (ds ++ es) = natOfDigits ds * 10 ^ es.length + natOfDigits es := by
  have key : ∀ (es : List Char) (n : ℕ), es.foldl (fun n c => 10 * n + (c.toNat - 48)) n =
      n * 10 ^ es.length + natOfDigits es := by
    intro es
    induction es with
    | nil => simp [natOfDigits]
    | cons c es ih =>
      intro n
      rw [natOfDigits, List.foldl_cons, List.foldl_cons, ih, ih (10 * 0 + _), List.length_cons,
        pow_succ]
      ring
  rw [natOfDigits, List.foldl_append, key es]
  rfl

theorem natOfDigits_zeros (k : ℕ) : natOfDigits (List.replicate k '0') = 0 := by
  induction k with
  | zero => rfl
  | succ k ih =>
    rw [List.replicate_succ', natOfDigits_append, ih]
    rfl

theorem natOfDigits_toDigits (n : ℕ) : natOfDigits (Nat.toDigits 10 n) = n :=
  Nat.ofDigitChars_ten_toDigits

theorem isDigit_of_mem_toDigits {n : ℕ} {c : Char} (h : c ∈ Nat.toDigits 10 n) :
    c.isDigit = true :=
  Nat.isDigit_of_mem_toDigits (by norm_num) le_rfl h

/-- A positive number is written without a zero in front. -/
theorem head?_toDigits_ne {n : ℕ} (hn : 0 < n) : (Nat.toDigits 10 n).head? ≠ some '0' := by
  induction n using Nat.strongRecOn with
  | ind n ih =>
    by_cases h : n < 10
    · rw [Nat.toDigits_of_lt_base h]
      interval_cases n <;> decide
    · rw [Nat.toDigits_of_base_le (by norm_num) (by omega),
        List.head?_append_of_ne_nil _ Nat.toDigits_ne_nil]
      exact ih (n / 10) (by omega) (by omega)

theorem isWhole_of_head? {ds : List Char} (hne : ds ≠ []) (h : ds.head? ≠ some '0') :
    isWhole ds = true := by
  cases ds with
  | nil => exact absurd rfl hne
  | cons c ds =>
    have hc : c ≠ '0' := fun he => h (by rw [he]; rfl)
    rw [isWhole]
    · simpa using hc
    · rintro ⟨⟩
      exact absurd rfl hc

theorem isWhole_toDigits (n : ℕ) : isWhole (Nat.toDigits 10 n) = true := by
  by_cases hn : n = 0
  · subst hn
    rfl
  · exact isWhole_of_head? Nat.toDigits_ne_nil (head?_toDigits_ne (Nat.pos_of_ne_zero hn))

/-! ### Reading the parts of a numeral -/

/-- Nothing more of a stretch of digits follows. -/
def NoDigit (cs : List Char) : Prop := ∀ c, cs.head? = some c → c.isDigit = false

theorem takeWhile_digits {ds rest : List Char} (hd : ∀ c ∈ ds, c.isDigit = true)
    (hr : NoDigit rest) :
    (ds ++ rest).takeWhile Char.isDigit = ds ∧ (ds ++ rest).dropWhile Char.isDigit = rest := by
  rw [List.takeWhile_append_of_pos hd, List.dropWhile_append_of_pos hd]
  cases rest with
  | nil => simp
  | cons c rest => simp [hr c rfl]

theorem fraction?_point {ds rest : List Char} (hd : ∀ c ∈ ds, c.isDigit = true) (hne : ds ≠ [])
    (hr : NoDigit rest) : fraction? ('.' :: (ds ++ rest)) = some (ds, rest) := by
  obtain ⟨htake, hdrop⟩ := takeWhile_digits hd hr
  rw [fraction?, htake, hdrop]
  simp [hne]

theorem fraction?_other {rest : List Char} (h : rest.head? ≠ some '.') :
    fraction? rest = some ([], rest) := by
  rw [fraction?]
  rintro tail rfl
  exact h rfl

/-- An exponent behind its sign. -/
theorem exponent?_signed (plusSign : Bool) (e : ℤ) :
    exponent? ('e' :: ((if e < 0 then ['-'] else if plusSign then ['+'] else []) ++
      Nat.toDigits 10 e.natAbs)) = some (some e) := by
  have hne : Nat.toDigits 10 e.natAbs ≠ [] := Nat.toDigits_ne_nil
  have hall : (Nat.toDigits 10 e.natAbs).all Char.isDigit = true :=
    List.all_eq_true.2 fun c hc => isDigit_of_mem_toDigits hc
  have hcond : ((Nat.toDigits 10 e.natAbs).isEmpty ||
      !(Nat.toDigits 10 e.natAbs).all Char.isDigit) = false := by
    rw [hall]
    simp [hne]
  -- Without a sign the first character is a digit, so it is not taken for a sign.
  have hhead : ∀ c rest, Nat.toDigits 10 e.natAbs = c :: rest → c.isDigit = true :=
    fun c rest h => isDigit_of_mem_toDigits (h ▸ List.mem_cons_self)
  by_cases he : e < 0
  · rw [if_pos he]
    unfold exponent?
    simp only [List.singleton_append, true_or, if_true, hcond, natOfDigits_toDigits,
      Bool.false_eq_true, if_false, Option.some.injEq]
    omega
  · rw [if_neg he]
    cases plusSign with
    | true =>
      unfold exponent?
      simp only [List.singleton_append, true_or, if_true, hcond, natOfDigits_toDigits,
        Bool.false_eq_true, if_false, Option.some.injEq]
      omega
    | false =>
      unfold exponent?
      simp only [true_or, if_true, Bool.false_eq_true, if_false, List.nil_append]
      split
      · next h => cases hhead _ _ h
      · next h => cases hhead _ _ h
      · rw [hcond, natOfDigits_toDigits]
        simp only [Bool.false_eq_true, if_false, Option.some.injEq]
        omega

/-- A numeral from its parts. -/
theorem ofChars?_of_parts (negative : Bool) {whole tail places rest : List Char} {e : Option ℤ}
    (hd : ∀ c ∈ whole, c.isDigit = true) (hw : isWhole whole = true) (ht : NoDigit tail)
    (hf : fraction? tail = some (places, rest)) (he : exponent? rest = some e) :
    Numeral.ofChars? ((if negative then ['-'] else []) ++ (whole ++ tail)) =
      some ⟨⟨negative, natOfDigits (whole ++ places), e.getD 0 - places.length⟩,
        places.isEmpty && e.isNone⟩ := by
  obtain ⟨htake, hdrop⟩ := takeWhile_digits hd ht
  cases negative with
  | true =>
    unfold Numeral.ofChars?
    simp only [if_true, List.singleton_append, htake, hdrop, hw, hf]
    simp [he]
  | false =>
    -- The first digit is no sign.
    have hfirst : ∀ rest, whole ++ tail ≠ '-' :: rest := by
      intro rest h
      cases whole with
      | nil => cases hw
      | cons c whole =>
        cases h
        cases hd '-' List.mem_cons_self
    rw [show ((if false = true then ['-'] else []) ++ (whole ++ tail) : List Char) =
      whole ++ tail from rfl, Numeral.ofChars?]
    · simp only [htake, hdrop, hw, hf]
      simp [he]
    · exact hfirst

/-! ### Laid-out digits -/

theorem trimZeros_spec (ds : List Char) :
    ∃ z, ds = trimZeros ds ++ List.replicate z '0' := by
  have hz : ∀ c ∈ ds.reverse.takeWhile (· == '0'), c = '0' := fun c hc => by
    simpa using List.all_eq_true.1 List.all_takeWhile c hc
  refine ⟨(ds.reverse.takeWhile (· == '0')).length, ?_⟩
  rw [trimZeros, ← List.reverse_replicate, ← List.reverse_append,
    ← List.eq_replicate_of_mem hz, List.takeWhile_append_dropWhile, List.reverse_reverse]

theorem head?_trimZeros {ds : List Char} (hne : ds ≠ []) (h : ds.head? ≠ some '0') :
    trimZeros ds ≠ [] ∧ (trimZeros ds).head? = ds.head? := by
  obtain ⟨z, hz⟩ := trimZeros_spec ds
  have htrim : trimZeros ds ≠ [] := by
    intro hnil
    rw [hnil, List.nil_append] at hz
    cases z with
    | zero => exact hne hz
    | succ z => exact h (by rw [hz, List.replicate_succ, List.head?_cons])
  exact ⟨htrim, by conv_rhs => rw [hz, List.head?_append_of_ne_nil _ htrim]⟩

/-- The numeral that a text writes is no integer and has a sign and a value. -/
def Writes (cs : List Char) (negative : Bool) (x : ℚ) : Prop :=
  ∃ n, Numeral.ofChars? cs = some n ∧ n.integral = false ∧ n.decimal.negative = negative ∧
    n.decimal.value = x

/-- Zeros at the end of digits multiply by powers of ten. -/
theorem natOfDigits_append_zeros (t : List Char) (k : ℕ) :
    (natOfDigits (t ++ List.replicate k '0') : ℚ) = natOfDigits t * 10 ^ (k : ℤ) := by
  rw [natOfDigits_append, natOfDigits_zeros, List.length_replicate, add_zero, zpow_natCast]
  push_cast
  rfl

/-- A whole part and places. -/
theorem writes_point (negative : Bool) (W P : List Char) {x : ℚ}
    (hW : ∀ c ∈ W, c.isDigit = true) (hw : isWhole W = true) (hP : ∀ c ∈ P, c.isDigit = true)
    (hne : P ≠ []) (hx : (natOfDigits (W ++ P) : ℚ) * 10 ^ (-(P.length : ℤ)) = x) :
    Writes ((if negative then ['-'] else []) ++ (W ++ '.' :: P)) negative x := by
  have hf : fraction? ('.' :: P) = some (P, []) := by
    have := fraction?_point hP hne (show NoDigit [] from nofun)
    rwa [List.append_nil] at this
  have hpoint : NoDigit ('.' :: P) := by
    rintro c ⟨⟩
    rfl
  refine ⟨_, ofChars?_of_parts negative hW hw hpoint hf rfl, ?_, rfl, ?_⟩
  · simp [hne]
  · rw [Decimal.value, ← hx]
    simp

theorem isDigit_of_mem_zeros (n : ℕ) : ∀ c ∈ List.replicate n '0', c.isDigit = true := by
  intro c hc
  rw [List.eq_of_mem_replicate hc]
  rfl

section Layout

variable {t : List Char} (hd : ∀ c ∈ t, c.isDigit = true) (negative : Bool)
include hd

/-- All digits are in the whole part, which is filled up with zeros; one zero stands behind. -/
theorem writes_whole (hne : t ≠ []) (hhead : t.head? ≠ some '0') {k : ℕ}
    (hk : t.length ≤ k + 1) :
    Writes ((if negative then ['-'] else []) ++ positional t k) negative
      (natOfDigits t * 10 ^ ((k : ℤ) + 1 - t.length)) := by
  have htext : positional t (.ofNat k) =
      (t ++ List.replicate (k + 1 - t.length) '0') ++ '.' :: ['0'] := by
    simp [positional, List.take_of_length_le hk, List.drop_eq_nil_of_le hk]
  rw [← Int.ofNat_eq_natCast, htext]
  refine writes_point negative _ _ (fun c hc => ?_) (isWhole_of_head? (by simp [hne]) ?_)
    (isDigit_of_mem_zeros 1) (by simp) ?_
  · rcases List.mem_append.1 hc with hc | hc
    · exact hd c hc
    · exact isDigit_of_mem_zeros _ c hc
  · rwa [List.head?_append_of_ne_nil _ hne]
  · -- The zeros on both sides of the point count alike.
    rw [List.append_assoc, show (['0'] : List Char) = List.replicate 1 '0' from rfl,
      ← List.replicate_add, natOfDigits_append_zeros, mul_assoc, ← zpow_add₀ (by norm_num)]
    congr 2
    rw [List.length_replicate, Int.ofNat_eq_natCast]
    omega

/-- The point stands among the digits. -/
theorem writes_inside (hhead : t.head? ≠ some '0') {k : ℕ} (hk : ¬t.length ≤ k + 1) :
    Writes ((if negative then ['-'] else []) ++ positional t k) negative
      (natOfDigits t * 10 ^ ((k : ℤ) + 1 - t.length)) := by
  have hdrop : t.drop (k + 1) ≠ [] := by simpa using hk
  have htake : (t.take (k + 1)).length = k + 1 := List.length_take_of_le (by omega)
  have htext : positional t (.ofNat k) = t.take (k + 1) ++ '.' :: t.drop (k + 1) := by
    rw [positional, htake, Nat.sub_self, List.replicate_zero, List.append_nil]
    simp [hdrop]
  rw [← Int.ofNat_eq_natCast, htext]
  refine writes_point negative _ _ (fun c hc => hd c (List.mem_of_mem_take hc))
    (isWhole_of_head? (fun h => ?_) ?_) (fun c hc => hd c (List.mem_of_mem_drop hc)) hdrop ?_
  · rw [h] at htake
    cases htake
  · rwa [List.head?_take, if_neg (by omega)]
  · rw [List.take_append_drop, List.length_drop]
    congr 2
    rw [Int.ofNat_eq_natCast]
    omega

/-- All digits are behind the point, after zeros. -/
theorem writes_behind (hne : t ≠ []) (k : ℕ) :
    Writes ((if negative then ['-'] else []) ++ positional t (.negSucc k)) negative
      (natOfDigits t * 10 ^ (Int.negSucc k + 1 - t.length)) := by
  have htext : positional t (.negSucc k) = ['0'] ++ '.' :: (List.replicate k '0' ++ t) := rfl
  rw [htext]
  refine writes_point negative _ _ (isDigit_of_mem_zeros 1) rfl (fun c hc => ?_) (by simp [hne]) ?_
  · rcases List.mem_append.1 hc with hc | hc
    · exact isDigit_of_mem_zeros k c hc
    · exact hd c hc
  · -- Zeros before digits do not change the number.
    rw [← List.append_assoc, show (['0'] ++ List.replicate k '0' : List Char) =
      List.replicate (k + 1) '0' from rfl, natOfDigits_append, natOfDigits_zeros, Nat.zero_mul,
      Nat.zero_add, List.length_append, List.length_replicate]
    congr 2
    rw [Int.negSucc_eq]
    omega

theorem writes_positional (hne : t ≠ []) (hhead : t.head? ≠ some '0') (lead : ℤ) :
    Writes ((if negative then ['-'] else []) ++ positional t lead) negative
      (natOfDigits t * 10 ^ (lead + 1 - t.length)) := by
  cases lead with
  | ofNat k =>
    by_cases hk : t.length ≤ k + 1
    · exact writes_whole hd negative hne hhead hk
    · exact writes_inside hd negative hhead hk
  | negSucc k => exact writes_behind hd negative hne k

theorem writes_scientific (hne : t ≠ []) (hhead : t.head? ≠ some '0') (plusSign : Bool)
    (lead : ℤ) :
    Writes ((if negative then ['-'] else []) ++ scientific plusSign t lead) negative
      (natOfDigits t * 10 ^ (lead + 1 - t.length)) := by
  cases t with
  | nil => exact absurd rfl hne
  | cons c places =>
    obtain ⟨hc, hplaces⟩ := List.forall_mem_cons.1 hd
    generalize hE : (if lead < 0 then ['-'] else if plusSign then ['+'] else []) ++
      Nat.toDigits 10 lead.natAbs = E
    have hexp : exponent? ('e' :: E) = some (some lead) := hE ▸ exponent?_signed plusSign lead
    have htail : NoDigit ('e' :: E) := by
      rintro d ⟨⟩
      rfl
    -- Without places there is no point.
    obtain ⟨tail, htext, hno, hfraction⟩ : ∃ tail, scientific plusSign (c :: places) lead =
        [c] ++ tail ∧ NoDigit tail ∧ fraction? tail = some (places, 'e' :: E) := by
      by_cases hp : places = []
      · subst hp
        refine ⟨'e' :: E, ?_, htail, fraction?_other (by simp)⟩
        rw [← hE]
        simp [scientific]
      · refine ⟨'.' :: (places ++ 'e' :: E), ?_, ?_, fraction?_point hplaces hp htail⟩
        · rw [← hE]
          simp [scientific, hp]
        · rintro d ⟨⟩
          rfl
    have hc0 : isWhole [c] = true := isWhole_of_head? (by simp) hhead
    rw [htext]
    refine ⟨_, ofChars?_of_parts negative (by simpa using hc) hc0 hno hfraction hexp, ?_, rfl, ?_⟩
    · simp
    · rw [Decimal.value]
      simp only [List.singleton_append, Option.getD_some, List.length_cons]
      congr 2
      push_cast
      ring

end Layout

/-- The digits of a decimal, set out in either way, have its value. -/
theorem writes_decimal (layout : Binary64.Layout) (negative : Bool) {d : Decimal}
    (hd : 0 < d.coefficient) {ds : List Char} (hds : Nat.toDigits 10 d.coefficient = ds)
    {lead : ℤ} (hlead : d.exponent + ds.length - 1 = lead) :
    Writes ((if negative then ['-'] else []) ++
      if layout.lowest ≤ lead ∧ lead ≤ layout.highest then positional (trimZeros ds) lead
      else scientific layout.plusSign (trimZeros ds) lead) negative d.value := by
  have hds0 : ds.head? ≠ some '0' := hds ▸ head?_toDigits_ne hd
  have hdsne : ds ≠ [] := hds ▸ Nat.toDigits_ne_nil
  obtain ⟨htrim, hhead⟩ := head?_trimZeros hdsne hds0
  obtain ⟨z, hz⟩ := trimZeros_spec ds
  have hlen : ds.length = (trimZeros ds).length + z := by
    conv_lhs => rw [hz]
    simp
  have hdigits : ∀ c ∈ trimZeros ds, c.isDigit = true := fun c hc => by
    have : c ∈ ds := hz ▸ List.mem_append_left _ hc
    exact isDigit_of_mem_toDigits (hds ▸ this)
  -- The zeros that are trimmed are made up for by the exponent.
  have hvalue : (natOfDigits (trimZeros ds) : ℚ) * 10 ^ (lead + 1 - (trimZeros ds).length) =
      d.value := by
    rw [Decimal.value, ← natOfDigits_toDigits d.coefficient, hds]
    conv_rhs => rw [hz, natOfDigits_append_zeros, mul_assoc, ← zpow_add₀ (by norm_num)]
    congr 2
    omega
  rw [← hvalue]
  by_cases hin : layout.lowest ≤ lead ∧ lead ≤ layout.highest
  · rw [if_pos hin]
    exact writes_positional hdigits negative htrim (hhead ▸ hds0) lead
  · rw [if_neg hin]
    exact writes_scientific hdigits negative htrim (hhead ▸ hds0) layout.plusSign lead

/-! ### Numbers read back -/

theorem ofMagnitude_val (negative : Bool) (m : Fin (Binary64.infinite + 1)) :
    Binary64.ofMagnitude negative m.val = .number negative m := by
  have := m.isLt
  simp only [Binary64.ofMagnitude, Binary64.number.injEq, true_and]
  exact Fin.ext (min_eq_left (by omega))

/-- **The text of a finite number reads back as it**, in any layout. -/
theorem exists_numeral_of_render (layout : Binary64.Layout) {x : Binary64}
    (hx : x.isFinite = true) :
    ∃ n, Numeral.ofChars? (x.render layout).toList = some n ∧
      Written.number? n = some (.float x) := by
  cases x with
  | nan => cases hx
  | number negative m =>
    have hm : m.val < Binary64.infinite := by simpa [Binary64.isFinite] using hx
    -- The numeral has a point or an exponent, so it is not read as an integer.
    obtain ⟨n, hn, hintegral, hread⟩ : ∃ n,
        Numeral.ofChars? ((Binary64.number negative m).render layout).toList = some n ∧
          n.integral = false ∧ Binary64.ofDecimal n.decimal = .number negative m := by
      rw [Binary64.render]
      simp only [String.toList_ofList, if_neg hm.ne]
      by_cases hzero : m.val = 0
      · obtain ⟨n, hn, hi, hs, hv⟩ := writes_point negative ['0'] ['0'] (x := 0) (by simp) rfl
          (by simp) (by simp) (by simp [natOfDigits])
        refine ⟨n, by rw [if_pos hzero]; exact hn, hi, ?_⟩
        rw [Binary64.ofDecimal_eq, hs, hv, ← ofMagnitude_val, hzero]
        rfl
      · obtain ⟨n, hn, hi, hs, hv⟩ := writes_decimal layout negative
          (Binary64.shortest_coefficient_pos layout.ties (Nat.pos_of_ne_zero hzero)) rfl rfl
        refine ⟨n, by rw [if_neg hzero]; exact hn, hi, ?_⟩
        rw [Binary64.ofDecimal_of_value_eq layout.ties hv, hs, ofMagnitude_val]
    refine ⟨n, hn, ?_⟩
    rw [Written.number?, hread]
    simp [hintegral, hx]

/-- The text of an integer is a numeral without fraction and exponent. -/
theorem ofChars?_integerChars (n : ℤ) :
    Numeral.ofChars? (integerChars n) = some ⟨⟨decide (n < 0), n.natAbs, 0⟩, true⟩ := by
  have h := ofChars?_of_parts (decide (n < 0))
    (fun c (hc : c ∈ Nat.toDigits 10 n.natAbs) => isDigit_of_mem_toDigits hc) (isWhole_toDigits _)
    (show NoDigit [] from nofun) rfl rfl
  simp only [List.append_nil, natOfDigits_toDigits, decide_eq_true_eq] at h
  exact h

/-- It reads back as the integer if that has 64 bits with a sign. -/
theorem number?_integer {n : ℤ} (h₁ : Int64.minValue.toInt ≤ n) (h₂ : n ≤ Int64.maxValue.toInt) :
    Written.number? ⟨⟨decide (n < 0), n.natAbs, 0⟩, true⟩ = some (.integer n) := by
  have hmax : n < UInt64.size := lt_of_le_of_lt h₂ (by decide)
  have hi : (if decide (n < 0) = true then -(n.natAbs : ℤ) else n.natAbs) = n := by
    simp only [decide_eq_true_eq]
    split <;> omega
  rw [Written.number?]
  simp only [hi]
  rw [if_pos ⟨trivial, h₁, hmax, fun ⟨hneg, hzero⟩ => by simp [hzero] at hneg⟩]

end Json

end VersionedModel
