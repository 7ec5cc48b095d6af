import VersionedModel.Proofs.Value.Order

/-!
# Chains of values

Integers are compared with one another as they are, and with floats after they were rounded to one.
So the order of values is not transitive: two integers may be equal to one float and not to each
other. That is all that stands in the way. Numbers are compared by the places on the number line to
which they are rounded, and integers at one place by themselves (`Value.compare_of_place`); so three
values are ordered as a chain if nowhere among them two integers are told apart by each other and
not by a float (`Value.chained_compare`). For an integer, a float and another integer nothing less
will do (`Value.discerned_iff`).

In particular the order is transitive where no integer is taken for a float that it is not
(`Value.MeetsExactly`, `Value.compare_trans`): there numbers are in the order of their values
(`Value.compare_number`).
-/

namespace VersionedModel

/-- The three orders among three things make a chain: if the first comes no later than the second
and the second no later than the third, the outer two are ordered as the first two that differ. -/
def Chained (p q r : Option Ordering) : Prop :=
  ∀ o o', p = some o → q = some o' → o ≠ .gt → o' ≠ .gt → r = some (o.then o')

section Chained

variable {p q r p' q' r' : Option Ordering}

theorem chained_none_left : Chained none q r :=
  fun _ _ hp => nomatch hp

theorem chained_none_right : Chained p none r :=
  fun _ _ _ hq => nomatch hq

theorem chained_ord {α : Type} [Ord α] [Std.TransOrd α] (x y z : α) :
    Chained (some (Ord.compare x y)) (some (Ord.compare y z)) (some (Ord.compare x z)) := by
  rintro _ _ ⟨⟩ ⟨⟩ hxy hyz
  refine congrArg some ?_
  cases h : Ord.compare x y with
  | lt =>
    cases h' : Ord.compare y z with
    | lt => exact Std.TransCmp.lt_trans h h'
    | eq => exact Std.TransCmp.lt_of_lt_of_eq h h'
    | gt => exact absurd h' hyz
  | eq => exact Std.TransCmp.congr_left h
  | gt => exact absurd h hxy

/-- Chains in the first places and in the rest make a chain. The rest only counts if the first
places are all equal. -/
theorem Chained.firstDifference (hfirst : Chained p q r)
    (hrest : p = some .eq → q = some .eq → Chained p' q' r') :
    Chained (firstDifference p p') (firstDifference q q') (firstDifference r r') := by
  intro o o' h h' ho ho'
  rcases firstDifference_eq_some_iff.1 h with ⟨hp, hp'⟩ | ⟨hp, hne⟩
  · rcases firstDifference_eq_some_iff.1 h' with ⟨hq, hq'⟩ | ⟨hq, hne'⟩
    · exact firstDifference_eq_some_iff.2
        (.inl ⟨hfirst .eq .eq hp hq nofun nofun, hrest hp hq o o' hp' hq' ho ho'⟩)
    · -- The second and the third are told apart here, whatever follows in the first.
      obtain rfl : o' = .lt := by cases o' <;> trivial
      have hthen : o.then .lt = .lt := by cases o <;> trivial
      rw [hthen]
      exact firstDifference_eq_some_iff.2 (.inr ⟨hfirst .eq .lt hp hq nofun nofun, nofun⟩)
  · obtain rfl : o = .lt := by cases o <;> trivial
    refine firstDifference_eq_some_iff.2 (.inr ⟨?_, nofun⟩)
    rcases firstDifference_eq_some_iff.1 h' with ⟨hq, -⟩ | ⟨hq, -⟩
    · exact hfirst .lt .eq hp hq nofun nofun
    · exact hfirst .lt o' hp hq nofun ho'

end Chained


theorem Binary64.chained_compare (x y z : Binary64) :
    Chained (x.compare y) (y.compare z) (x.compare z) := by
  match x, y, z with
  | .nan, _, _ => exact chained_none_left
  | .number s m, .nan, _ => exact chained_none_left
  | .number s m, .number t n, .nan => exact chained_none_right
  | .number s m, .number t n, .number u k => exact chained_ord (place s m) (place t n) (place u k)

namespace Value

/-! ### Values that are the same -/

mutual

theorem same_trans {a b c : Value} (hab : a.same b = true) (hbc : b.same c = true) :
    a.same c = true := by
  cases a <;> cases b <;> try cases hab
  case null.null => exact hbc
  case bool.bool | integer.integer | string.string | bytes.bytes =>
    obtain rfl := beq_iff_eq.1 hab
    exact hbc
  case float.float x y =>
    cases c with
    | float z =>
      rw [same, Binary64.same, beq_iff_eq] at *
      exact Binary64.chained_compare x y z _ _ hab hbc nofun nofun
    | _ => cases hbc
  case array.array as bs =>
    cases c with
    | array cs => exact sameItems_trans hab hbc
    | _ => cases hbc
  case map.map as bs =>
    cases c with
    | map cs => exact sameEntries_trans hab hbc
    | _ => cases hbc

theorem sameItems_trans {as bs cs : List Value} (hab : sameItems as bs = true)
    (hbc : sameItems bs cs = true) : sameItems as cs = true := by
  match as, bs, cs with
  | [], [], [] => rfl
  | a :: as, b :: bs, c :: cs =>
    rw [sameItems, Bool.and_eq_true] at *
    exact ⟨same_trans hab.1 hbc.1, sameItems_trans hab.2 hbc.2⟩

theorem sameEntries_trans {as bs cs : List (String × Value)} (hab : sameEntries as bs = true)
    (hbc : sameEntries bs cs = true) : sameEntries as cs = true := by
  match as, bs, cs with
  | [], [], [] => rfl
  | (i, a) :: as, (j, b) :: bs, (k, c) :: cs =>
    simp only [sameEntries, Bool.and_eq_true, beq_iff_eq] at *
    exact ⟨⟨hab.1.1.trans hbc.1.1, same_trans hab.1.2 hbc.1.2⟩, sameEntries_trans hab.2 hbc.2⟩

end

theorem compare_map {as bs : List (String × Value)} {o : Ordering} :
    (map as).compare (map bs) = some o ↔ sameEntries as bs = true ∧ o = .eq := by
  rw [compare]
  split
  · next h => simp [h, eq_comm]
  · next h => simp [h]

/-! ### Numbers -/

/-- The place on the number line where a number is compared with floats. Not-a-number has none. -/
def place? : Value → Option ℤ
  | integer i => some (Binary64.rounded i.toInt)
  | float (.number s m) => some (Binary64.place s m)
  | _ => none

/-- What tells numbers apart that have one place: two integers are compared as they are. -/
def tieBreak : Value → Value → Ordering
  | integer i, integer j => Ord.compare i j
  | _, _ => .eq

theorem compare_toInt (i j : Int64) :
    Ord.compare i j = Ord.compare (i.toInt : ℚ) (j.toInt : ℚ) := by
  rcases lt_trichotomy i.toInt j.toInt with hlt | heq | hgt
  · rw [Std.compare_eq_lt.2 (Int64.lt_iff_toInt_lt.2 hlt),
      compare_lt_iff_lt.2 (Int.cast_lt.2 hlt)]
  · rw [Std.compare_eq_eq_iff_eq.2 (Int64.toInt_inj.1 heq), heq, compare_eq_iff_eq.2 rfl]
  · rw [Std.compare_eq_gt.2 (Int64.lt_iff_toInt_lt.2 hgt),
      compare_gt_iff_gt.2 (Int.cast_lt.2 hgt)]

theorem tieBreak_of_float {a b : Value} (h : a.kind = .float ∨ b.kind = .float) :
    tieBreak a b = .eq := by
  cases a with
  | integer i =>
    cases b with
    | integer j => rcases h with h | h <;> cases h
    | _ => rfl
  | _ => rfl

theorem tieBreak_self (a : Value) : tieBreak a a = .eq := by
  cases a with
  | integer i => exact Std.compare_eq_eq_iff_eq.2 rfl
  | _ => rfl

/-- Rounding keeps the order of integers, but may take two of them to one place. -/
theorem compare_integers (i j : Int64) :
    (integer i).compare (integer j) =
      firstDifference (some (Ord.compare (Binary64.rounded i.toInt) (Binary64.rounded j.toInt)))
        (some (Ord.compare i j)) := by
  rw [compare, compare_toInt, firstDifference]
  split
  · rfl
  · next hne =>
    refine congrArg some (Binary64.compare_rounded fun heq => ?_).symm
    exact absurd (congrArg some (compare_eq_iff_eq.2 heq)) hne

/-- **Numbers are compared by their places**, and by themselves only if they are integers at one
place. -/
theorem compare_of_place {a b : Value} {p q : ℤ} (ha : a.place? = some p) (hb : b.place? = some q) :
    a.compare b = firstDifference (some (Ord.compare p q)) (some (tieBreak a b)) := by
  cases a with
  | integer i =>
    cases ha
    cases b with
    | integer j =>
      cases hb
      exact compare_integers i j
    | float y =>
      cases y with
      | nan => cases hb
      | number t n =>
        cases hb
        obtain ⟨s, m, hi, hplace⟩ := Binary64.exists_ofInt_eq i.toInt
        rw [tieBreak_of_float (.inr rfl), firstDifference_eq_right, compare, widen, hi,
          Binary64.compare, hplace]
    | _ => cases hb
  | float x =>
    cases x with
    | nan => cases ha
    | number s m =>
      cases ha
      rw [tieBreak_of_float (.inl rfl), firstDifference_eq_right]
      cases b with
      | integer j =>
        cases hb
        obtain ⟨t, n, hj, hplace⟩ := Binary64.exists_ofInt_eq j.toInt
        rw [compare, widen, hj, Binary64.compare, hplace]
      | float y =>
        cases y with
        | nan => cases hb
        | number t n =>
          cases hb
          rfl
      | _ => cases hb
  | _ => cases ha

theorem compare_nan (a : Value) : (float .nan).compare a = none := by
  cases a <;> rfl

/-- What is comparable with a number is a number, and both have places. -/
theorem exists_places {a b : Value} {o : Ordering} (h : a.compare b = some o)
    (ha : a.kind = .integer ∨ a.kind = .float) :
    (b.kind = .integer ∨ b.kind = .float) ∧ ∃ p q, a.place? = some p ∧ b.place? = some q := by
  match a, b with
  | float .nan, b => rw [compare_nan] at h; cases h
  | integer i, integer j => exact ⟨.inl rfl, _, _, rfl, rfl⟩
  | integer i, float (.number t n) => exact ⟨.inr rfl, _, _, rfl, rfl⟩
  | float (.number s m), integer j => exact ⟨.inl rfl, _, _, rfl, rfl⟩
  | float (.number s m), float (.number t n) => exact ⟨.inr rfl, _, _, rfl, rfl⟩

/-! ### Chains -/

mutual

/-- Nowhere among three values two integers are told apart by each other and not by a float that
both of them are compared with. What comes behind a difference is not looked at. -/
def Discerned : Value → Value → Value → Prop
  | integer i, integer j, float x | integer i, float x, integer j | float x, integer i, integer j =>
    (integer i).compare (float x) = some .eq → (integer j).compare (float x) = some .eq → i = j
  | array as, array bs, array cs => ItemsDiscerned as bs cs
  | _, _, _ => True

/-- Nor is it so in any item that is looked at. -/
def ItemsDiscerned : List Value → List Value → List Value → Prop
  | a :: as, b :: bs, c :: cs =>
    a.Discerned b c ∧ (a.compare b = some .eq → b.compare c = some .eq → ItemsDiscerned as bs cs)
  | _, _, _ => True

end

theorem compare_eq_of_place {a b : Value} {p : ℤ} (ha : a.place? = some p) (hb : b.place? = some p)
    (h : tieBreak a b = .eq) : a.compare b = some .eq := by
  rw [compare_of_place ha hb, h, firstDifference_eq_right, compare_eq_iff_eq.2 rfl]

/-- Numbers that are discerned are ordered as a chain at one place as well. -/
theorem chained_tieBreak {a b c : Value} {p : ℤ} (ha : a.place? = some p) (hb : b.place? = some p)
    (hc : c.place? = some p) (h : a.Discerned b c) :
    Chained (some (tieBreak a b)) (some (tieBreak b c)) (some (tieBreak a c)) := by
  match a, b, c with
  | integer i, integer j, integer k => exact chained_ord i j k
  | integer i, integer j, float x =>
    obtain rfl := h (compare_eq_of_place ha hc rfl) (compare_eq_of_place hb hc rfl)
    rw [tieBreak_self]
    exact chained_ord () () ()
  | integer i, float x, integer j =>
    obtain rfl := h (compare_eq_of_place ha hb rfl) (compare_eq_of_place hc hb rfl)
    rw [tieBreak_self]
    exact chained_ord () () ()
  | float x, integer i, integer j =>
    obtain rfl := h (compare_eq_of_place hb ha rfl) (compare_eq_of_place hc ha rfl)
    rw [tieBreak_self]
    exact chained_ord () () ()
  | integer _, float _, float _ | float _, integer _, float _ | float _, float _, integer _
  | float _, float _, float _ => exact chained_ord () () ()

/-- Numbers that are discerned are ordered as a chain. -/
theorem chained_numbers {a b c : Value} (ha : a.kind = .integer ∨ a.kind = .float)
    (h : a.Discerned b c) : Chained (a.compare b) (b.compare c) (a.compare c) := by
  intro o o' hab hbc
  obtain ⟨hb, p, q, hp, hq⟩ := exists_places hab ha
  obtain ⟨-, q', r, hq', hr⟩ := exists_places hbc hb
  obtain rfl := Option.some.inj (hq.symm.trans hq')
  revert o o' hab hbc
  show Chained _ _ _
  rw [compare_of_place hp hq, compare_of_place hq hr, compare_of_place hp hr]
  refine (chained_ord p q r).firstDifference fun hpq hqr => ?_
  obtain rfl := compare_eq_iff_eq.1 (Option.some.inj hpq)
  obtain rfl := compare_eq_iff_eq.1 (Option.some.inj hqr)
  exact chained_tieBreak hp hq hr h

mutual

/-- **Values that are discerned are ordered as a chain.** -/
theorem chained_compare {a b c : Value} (h : a.Discerned b c) :
    Chained (a.compare b) (b.compare c) (a.compare c) := by
  cases a
  case integer i => exact chained_numbers (.inl rfl) h
  case float x => exact chained_numbers (.inr rfl) h
  -- Values of other kinds are only compared with values of their own kind.
  all_goals cases b <;> try exact chained_none_left
  all_goals cases c <;> try exact chained_none_right
  case null.null.null => exact chained_ord () () ()
  case bool.bool.bool x y z => exact chained_ord x y z
  case string.string.string x y z => exact chained_ord x y z
  case bytes.bytes.bytes x y z => exact chained_ord x y z
  case array.array.array as bs cs => exact chained_compareItems h
  case map.map.map as bs cs =>
    intro o o' hab hbc _ _
    obtain ⟨hsame, rfl⟩ := compare_map.1 hab
    obtain ⟨hsame', rfl⟩ := compare_map.1 hbc
    exact compare_map.2 ⟨sameEntries_trans hsame hsame', rfl⟩

theorem chained_compareItems {as bs cs : List Value} (h : ItemsDiscerned as bs cs) :
    Chained (compareItems as bs) (compareItems bs cs) (compareItems as cs) := by
  match as, bs, cs with
  | [], [], _ =>
    rintro _ _ ⟨⟩ hbc - -
    exact hbc
  | [], _ :: _, _ :: _ =>
    rintro _ _ ⟨⟩ - - -
    rfl
  | [], _ :: _, [] | _ :: _, _ :: _, [] =>
    rintro _ _ - ⟨⟩ - hne
    exact absurd rfl hne
  | _ :: _, [], _ =>
    rintro _ _ ⟨⟩ - hne -
    exact absurd rfl hne
  | a :: as, b :: bs, c :: cs =>
    rw [compareItems_cons, compareItems_cons, compareItems_cons]
    exact (chained_compare h.1).firstDifference fun hab hbc => chained_compareItems (h.2 hab hbc)

end

/-- **For two integers with a float between them nothing less will do.** -/
theorem discerned_iff {i j : Int64} {x : Binary64} :
    (integer i).Discerned (float x) (integer j) ↔
      Chained ((integer i).compare (float x)) ((float x).compare (integer j))
        ((integer i).compare (integer j)) := by
  refine ⟨chained_compare, fun h hi hj => ?_⟩
  have hj' : (float x).compare (integer j) = some .eq := by
    rw [compare_swap (integer j), hj]
    rfl
  have hij : (integer i).compare (integer j) = some .eq := h .eq .eq hi hj' nofun nofun
  exact Std.compare_eq_eq_iff_eq.1 (Option.some.inj hij)

/-- **The order of values is transitive as far as they are discerned.** If one value comes no later
than another and this one no later than a third, the first comes no later than the third, and it
comes before it if one of the two did. -/
theorem compare_eq_then {a b c : Value} {o o' : Ordering} (h : a.Discerned b c)
    (hab : a.compare b = some o) (hbc : b.compare c = some o') (ho : o ≠ .gt) (ho' : o' ≠ .gt) :
    a.compare c = some (o.then o') :=
  chained_compare h o o' hab hbc ho ho'

/-- The float that the integers 9007199254740992 and 9007199254740993 are rounded to. -/
def roundedTo : Value := float (.ofBits 0x4340000000000000)

/-- Arrays that are told apart by what comes behind equal numbers of both kinds, before integers
stand against the float that they are rounded to. -/
theorem compare_eq_then_of_arrays :
    (array [array [integer 1, integer 2], integer 9007199254740993]).compare
        (array [array [float (.ofInt 1), float (.ofInt 2)], integer 9007199254740994]) =
      some .lt ∧
    (array [array [float (.ofInt 1), float (.ofInt 2)], integer 9007199254740994]).compare
        (array [array [integer 1, integer 3], roundedTo]) = some .lt ∧
    (array [array [integer 1, integer 2], integer 9007199254740993]).compare
        (array [array [integer 1, integer 3], roundedTo]) = some .lt := by
  have hfirst : (array [array [integer 1, integer 2], integer 9007199254740993]).compare
      (array [array [float (.ofInt 1), float (.ofInt 2)], integer 9007199254740994]) =
        some .lt := by
    decide
  have hlast : (array [array [float (.ofInt 1), float (.ofInt 2)],
      integer 9007199254740994]).compare
      (array [array [integer 1, integer 3], roundedTo]) = some .lt := by
    decide
  refine ⟨hfirst, hlast, compare_eq_then ?_ hfirst hlast nofun nofun⟩
  have hone : (integer 1).Discerned (float (.ofInt 1)) (integer 1) := fun _ _ => rfl
  have hrest : (integer 2).Discerned (float (.ofInt 2)) (integer 3) :=
    fun _ h => absurd h (by decide)
  exact ⟨⟨hone, fun _ _ => ⟨hrest, fun _ h => absurd h (by decide)⟩⟩,
    fun _ h => absurd h (by decide)⟩

/-- Both of two different integers are equal to the float that they are rounded to. -/
theorem compare_gt_of_eq_of_eq :
    (integer 9007199254740993).compare roundedTo = some .eq ∧
      roundedTo.compare (integer 9007199254740992) = some .eq ∧
      (integer 9007199254740993).compare (integer 9007199254740992) = some .gt := by
  decide

/-! ### Numbers that meet exactly -/

mutual

/-- Wherever an integer of one value stands against a float of the other and is equal to it in the
order, the float has the integer's value. -/
def MeetsExactly : Value → Value → Prop
  | integer i, float x | float x, integer i =>
    (widen i).compare x = some .eq → x.toRat? = some (i.toInt : ℚ)
  | array as, array bs => ItemsMeetExactly as bs
  | _, _ => True

/-- So it is in every item. -/
def ItemsMeetExactly : List Value → List Value → Prop
  | a :: as, b :: bs => a.MeetsExactly b ∧ ItemsMeetExactly as bs
  | _, _ => True

end

/-- The value of a number. -/
def number? : Value → Option ℚ
  | integer i => some i.toInt
  | float x => x.toRat?
  | _ => none

/-- **Numbers that meet exactly are in the order of their values.** -/
theorem compare_number {a b : Value} {p q : ℚ} (ha : a.number? = some p) (hb : b.number? = some q)
    (h : a.MeetsExactly b) : a.compare b = some (Ord.compare p q) := by
  cases a with
  | integer i =>
    cases ha
    cases b with
    | integer j =>
      cases hb
      exact congrArg some (compare_toInt i j)
    | float y => exact Binary64.compare_ofInt hb h
    | _ => cases hb
  | float x =>
    cases b with
    | integer j =>
      cases hb
      have hswap := Binary64.compare_ofInt ha h
      rw [compare, Binary64.compare_swap, widen, hswap, Option.map_some,
        ← Std.OrientedOrd.eq_swap]
    | float y => exact Binary64.compare_eq_some ha hb
    | _ => cases hb
  | _ => cases ha


theorem eq_of_toRat?_eq {x : Binary64} {i j : Int64} (hi : x.toRat? = some (i.toInt : ℚ))
    (hj : x.toRat? = some (j.toInt : ℚ)) : i = j :=
  Int64.toInt_inj.1 (Int.cast_injective (Option.some.inj (hi.symm.trans hj)))

mutual

theorem MeetsExactly.discerned {a b c : Value} (eab : a.MeetsExactly b) (ebc : b.MeetsExactly c)
    (eac : a.MeetsExactly c) : a.Discerned b c := by
  unfold Discerned
  split
  · exact fun hi hj => eq_of_toRat?_eq (eac hi) (ebc hj)
  · exact fun hi hj => eq_of_toRat?_eq (eab hi) (ebc hj)
  · exact fun hi hj => eq_of_toRat?_eq (eab hi) (eac hj)
  · exact ItemsMeetExactly.discerned eab ebc eac
  · trivial

theorem ItemsMeetExactly.discerned {as bs cs : List Value} (eab : ItemsMeetExactly as bs)
    (ebc : ItemsMeetExactly bs cs) (eac : ItemsMeetExactly as cs) : ItemsDiscerned as bs cs := by
  match as, bs, cs with
  | [], _, _ | _ :: _, [], _ | _ :: _, _ :: _, [] => trivial
  | a :: as, b :: bs, c :: cs =>
    exact ⟨eab.1.discerned ebc.1 eac.1, fun _ _ => eab.2.discerned ebc.2 eac.2⟩

end

/-- **The order of values is transitive** where numbers meet exactly. -/
theorem compare_trans {a b c : Value} (eab : a.MeetsExactly b) (ebc : b.MeetsExactly c)
    (eac : a.MeetsExactly c) : Chained (a.compare b) (b.compare c) (a.compare c) :=
  chained_compare (eab.discerned ebc eac)

end Value

end VersionedModel
