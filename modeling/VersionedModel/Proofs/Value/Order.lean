import VersionedModel.Proofs.Binary64.Order
import VersionedModel.Value.Compare

/-!
# The order of values

Comparing two values the other way round gives the reversed order (`Value.compare_swap`), and values
that are the same are equal in the order (`Value.compare_of_same`). The converse holds as long as no
integer stands against a float (`Value.same_iff`).
-/

namespace VersionedModel

/-! ### First differences -/

/-- What the first places decide, and the rest if these are equal. -/
def firstDifference (first rest : Option Ordering) : Option Ordering :=
  if first = some .eq then rest else first

theorem firstDifference_swap (p q : Option Ordering) :
    firstDifference (p.map Ordering.swap) (q.map Ordering.swap) =
      (firstDifference p q).map Ordering.swap := by
  cases p with
  | none => rfl
  | some o => cases o <;> rfl

theorem firstDifference_eq_some_iff {p q : Option Ordering} {o : Ordering} :
    firstDifference p q = some o ↔ (p = some .eq ∧ q = some o) ∨ (p = some o ∧ o ≠ .eq) := by
  rw [firstDifference]
  split
  · next h => simp [h, eq_comm]
  · next h =>
    constructor
    · intro heq
      exact .inr ⟨heq, fun ho => h (ho ▸ heq)⟩
    · rintro (⟨heq, -⟩ | ⟨heq, -⟩)
      · exact absurd heq h
      · exact heq

theorem firstDifference_eq_right (p : Option Ordering) : firstDifference p (some .eq) = p := by
  rw [firstDifference]
  split
  · next h => exact h.symm
  · rfl

theorem firstDifference_assoc (p q r : Option Ordering) :
    firstDifference (firstDifference p q) r = firstDifference p (firstDifference q r) := by
  cases p with
  | none => rfl
  | some o => cases o <;> rfl

theorem Binary64.compare_swap (x y : Binary64) :
    y.compare x = (x.compare y).map Ordering.swap := by
  cases x with
  | nan => exact Binary64.compare_nan_right y
  | number s m =>
    cases y with
    | nan => rfl
    | number t n => exact congrArg some Std.OrientedCmp.eq_swap

namespace Value

theorem compareItems_cons (a b : Value) (as bs : List Value) :
    compareItems (a :: as) (b :: bs) = firstDifference (a.compare b) (compareItems as bs) := by
  rw [compareItems, firstDifference]
  split
  · next h => rw [if_pos h]
  · next h => rw [if_neg h]

/-! ### The other way round -/

mutual

theorem same_comm (a b : Value) : a.same b = b.same a := by
  cases a <;> cases b
  case bool.bool | integer.integer | string.string | bytes.bytes => exact Bool.beq_comm
  case float.float x y =>
    rw [same, same, Binary64.same, Binary64.same, Binary64.compare_swap]
    cases y.compare x with
    | none => rfl
    | some o => cases o <;> rfl
  case array.array as bs => exact sameItems_comm as bs
  case map.map as bs => exact sameEntries_comm as bs
  all_goals rfl

theorem sameItems_comm (as bs : List Value) : sameItems as bs = sameItems bs as := by
  match as, bs with
  | [], [] | [], _ :: _ | _ :: _, [] => rfl
  | a :: as, b :: bs => rw [sameItems, sameItems, same_comm a b, sameItems_comm as bs]

theorem sameEntries_comm (as bs : List (String × Value)) :
    sameEntries as bs = sameEntries bs as := by
  match as, bs with
  | [], [] | [], _ :: _ | _ :: _, [] => rfl
  | (j, a) :: as, (k, b) :: bs =>
    rw [sameEntries, sameEntries, same_comm a b, sameEntries_comm as bs, Bool.beq_comm]

end

mutual

/-- **The other way round values are in the reversed order.** -/
theorem compare_swap (a b : Value) : b.compare a = (a.compare b).map Ordering.swap := by
  cases a <;> cases b
  case bool.bool | integer.integer | string.string | bytes.bytes =>
    exact congrArg some Std.OrientedCmp.eq_swap
  case float.float | integer.float | float.integer => exact Binary64.compare_swap ..
  case array.array as bs => exact compareItems_swap as bs
  case map.map as bs =>
    rw [compare, compare, sameEntries_comm]
    split <;> rfl
  all_goals rfl

theorem compareItems_swap (as bs : List Value) :
    compareItems bs as = (compareItems as bs).map Ordering.swap := by
  match as, bs with
  | [], [] | [], _ :: _ | _ :: _, [] => rfl
  | a :: as, b :: bs =>
    rw [compareItems_cons, compareItems_cons, compare_swap a b, compareItems_swap as bs,
      firstDifference_swap]

end

/-! ### Equal and the same -/

mutual

/-- Nowhere does an integer of one value stand against a float of the other. -/
def Unmixed : Value → Value → Prop
  | integer _, float _ | float _, integer _ => False
  | array as, array bs => ItemsUnmixed as bs
  | _, _ => True

/-- Nor does it in any item. -/
def ItemsUnmixed : List Value → List Value → Prop
  | a :: as, b :: bs => a.Unmixed b ∧ ItemsUnmixed as bs
  | _, _ => True

end

mutual

/-- **Two values are the same exactly if they are equal in the order** and no integer stands against
a float. -/
theorem same_iff (a b : Value) : a.same b = true ↔ a.compare b = some .eq ∧ a.Unmixed b := by
  cases a <;> cases b
  case bool.bool | integer.integer | string.string | bytes.bytes =>
    simp [same, compare, Unmixed]
  case float.float x y => simp [same, compare, Unmixed, Binary64.same]
  case array.array as bs => exact sameItems_iff as bs
  case map.map as bs => simp [same, compare, Unmixed]
  all_goals simp [same, compare, Unmixed]

theorem sameItems_iff (as bs : List Value) :
    sameItems as bs = true ↔ compareItems as bs = some .eq ∧ ItemsUnmixed as bs := by
  match as, bs with
  | [], [] | [], _ :: _ | _ :: _, [] => simp [sameItems, compareItems, ItemsUnmixed]
  | a :: as, b :: bs =>
    rw [sameItems, Bool.and_eq_true, same_iff a b, sameItems_iff as bs, compareItems_cons,
      firstDifference_eq_some_iff, ItemsUnmixed]
    tauto

end

/-- Values that are the same are equal in the order. -/
theorem compare_of_same {a b : Value} (h : a.same b = true) : a.compare b = some .eq :=
  ((same_iff a b).1 h).1

end Value

end VersionedModel
