import Mathlib.Data.List.Basic
import VersionedModel.Model.Order
import VersionedModel.Proofs.Lookup
import VersionedModel.Proofs.Value.Order

/-!
# The order of states

Two states are comparable at all if they are aligned (`State.Aligned`): the fields that they share
stand in the same order in both, and one of them has all fields of the other. Then the fields decide
in their order, and if they leave it open the state with fewer fields is the greater one
(`State.compare_of_aligned`).

So the other way round states are in the reversed order (`State.compare_swap`), and they are equal
in the order exactly if they are the same with their fields in the same order, up to integers that
stand against floats (`State.same_and_keys_eq_iff`).
-/

namespace VersionedModel

namespace State

/-! ### Fields -/

theorem get?_eq_none_iff {s : State} {name : String} : s.get? name = none ↔ name ∉ s.keys :=
  Entries.get?_eq_none_iff

theorem contains_iff {s : State} {name : String} : s.contains name = true ↔ name ∈ s.keys := by
  rw [contains, Option.isSome_iff_ne_none, ne_eq, get?_eq_none_iff, not_not]

theorem mem_keys_iff {s : State} {name : String} : name ∈ s.keys ↔ ∃ x, s.get? name = some x := by
  rw [← contains_iff, contains, Option.isSome_iff_exists]

theorem length_keys (s : State) : s.keys.length = s.size :=
  List.length_map _

theorem sharedKeys_eq_keys {s t : State} : s.sharedKeys t = s.keys ↔ s.keys ⊆ t.keys := by
  rw [sharedKeys, List.filter_eq_self]
  exact forall₂_congr fun _ _ => contains_iff

theorem length_sharedKeys_le (s t : State) : (s.sharedKeys t).length ≤ s.size :=
  (List.length_filter_le _ _).trans_eq s.length_keys

theorem length_sharedKeys_eq {s t : State} :
    (s.sharedKeys t).length = s.size ↔ s.keys ⊆ t.keys := by
  rw [← sharedKeys_eq_keys, ← length_keys]
  exact List.filter_sublist.length_eq

/-! ### Alignment -/

/-- The shared fields stand in the same order in both states, and one of them has all fields of the
other. -/
def Aligned (s t : State) : Prop :=
  t.sharedKeys s = s.sharedKeys t ∧ (s.keys ⊆ t.keys ∨ t.keys ⊆ s.keys)

section Aligned

variable {s t : State}

theorem Aligned.symm (h : s.Aligned t) : t.Aligned s :=
  ⟨h.1.symm, h.2.symm⟩

theorem Aligned.length_sharedKeys (h : s.Aligned t) :
    (s.sharedKeys t).length = min s.size t.size := by
  have hs := length_sharedKeys_le s t
  have ht := length_sharedKeys_le t s
  have hlength := congrArg List.length h.1
  rcases h.2 with hsub | hsub
  · have := length_sharedKeys_eq.2 hsub
    omega
  · have := length_sharedKeys_eq.2 hsub
    omega

/-- Of two aligned states, the one with more fields has all fields of the other. -/
theorem Aligned.subset_iff (h : s.Aligned t) : s.keys ⊆ t.keys ↔ s.size ≤ t.size := by
  rw [← length_sharedKeys_eq, h.length_sharedKeys, min_eq_left_iff]

/-- The order that some fields decide, and the sizes if these fields are equal: the state with fewer
fields is the greater one. -/
def compareBySize (s t : State) (names : List String) : Option Ordering :=
  (s.compareAt t names).map (·.then (Ord.compare t.size s.size))

/-- **Aligned states are ordered by their fields**, and by their sizes if these leave it open. -/
theorem compare_of_aligned (h : s.Aligned t) :
    s.compare t = s.compareBySize t (s.sharedKeys t) := by
  have hextra : ¬(min s.size t.size < s.size ∧ min s.size t.size < t.size) := by omega
  simp only [compare, compareBySize, h.1, h.length_sharedKeys, ne_eq, not_true_eq_false, if_false,
    hextra, Bool.and_eq_true, decide_eq_true_eq]
  cases s.compareAt t (s.sharedKeys t) with
  | none => rfl
  | some o =>
    cases o with
    | eq => simp [Nat.compare_eq_ite_lt]
    | _ => rfl

/-- Other states are not ordered. -/
theorem compare_of_not_aligned (h : ¬s.Aligned t) : s.compare t = none := by
  by_cases hkeys : t.sharedKeys s = s.sharedKeys t
  · obtain ⟨hs, ht⟩ := not_or.1 fun hsub => h ⟨hkeys, hsub⟩
    have hltS := (length_sharedKeys_le s t).lt_of_ne (mt length_sharedKeys_eq.1 hs)
    have hltT := (length_sharedKeys_le t s).lt_of_ne (mt length_sharedKeys_eq.1 ht)
    rw [hkeys] at hltT
    simp [compare, hkeys, hltS, hltT]
  · simp [compare, hkeys]

theorem aligned_of_compare {o : Ordering} (h : s.compare t = some o) : s.Aligned t := by
  by_contra hnot
  rw [compare_of_not_aligned hnot] at h
  cases h

end Aligned

/-! ### Fields one after the other -/

/-- The order of the values of a field. -/
def compareField (s t : State) (name : String) : Option Ordering := do
  (← s.get? name).compare (← t.get? name)

theorem compareAt_cons (s t : State) (name : String) (names : List String) :
    s.compareAt t (name :: names) =
      firstDifference (s.compareField t name) (s.compareAt t names) := by
  rw [compareAt, compareField]
  cases s.get? name with
  | none => rfl
  | some x =>
    cases t.get? name with
    | none => rfl
    | some y =>
      simp only [Option.bind_eq_bind, Option.bind_some]
      rw [firstDifference]
      split
      · next h => rw [if_pos h]
      · next h => rw [if_neg h]

theorem compareField_eq_some_iff {s t : State} {name : String} {o : Ordering} :
    s.compareField t name = some o ↔
      ∃ x y, s.get? name = some x ∧ t.get? name = some y ∧ x.compare y = some o := by
  simp only [compareField, Option.bind_eq_bind, Option.bind_eq_some_iff, exists_and_left]

theorem compareField_swap (s t : State) (name : String) :
    t.compareField s name = (s.compareField t name).map Ordering.swap := by
  rw [compareField, compareField]
  cases s.get? name with
  | none => cases t.get? name <;> rfl
  | some x =>
    cases t.get? name with
    | none => rfl
    | some y => exact Value.compare_swap x y

theorem compareAt_swap (s t : State) (names : List String) :
    t.compareAt s names = (s.compareAt t names).map Ordering.swap := by
  induction names with
  | nil => rfl
  | cons name names ih =>
    rw [compareAt_cons, compareAt_cons, compareField_swap s t, ih, firstDifference_swap]

theorem compareAt_append (s t : State) (names names' : List String) :
    s.compareAt t (names ++ names') =
      firstDifference (s.compareAt t names) (s.compareAt t names') := by
  induction names with
  | nil => rfl
  | cons name names ih =>
    rw [List.cons_append, compareAt_cons, compareAt_cons, ih, firstDifference_assoc]

theorem compareAt_eq_some_eq_iff {s t : State} {names : List String} :
    s.compareAt t names = some .eq ↔ ∀ name ∈ names, s.compareField t name = some .eq := by
  induction names with
  | nil => simp [compareAt]
  | cons name names ih =>
    rw [compareAt_cons, firstDifference_eq_some_iff, ih, List.forall_mem_cons]
    simp

/-- **The other way round states are in the reversed order.** -/
theorem compare_swap (s t : State) : t.compare s = (s.compare t).map Ordering.swap := by
  by_cases h : s.Aligned t
  · rw [compare_of_aligned h, compare_of_aligned h.symm, compareBySize, compareBySize, h.1,
      compareAt_swap s t, Option.map_map, Option.map_map]
    refine congrArg (Option.map · _) (funext fun o => ?_)
    simp [Ordering.swap_then, Nat.compare_swap]
  · rw [compare_of_not_aligned h, compare_of_not_aligned (mt Aligned.symm h)]
    rfl

/-! ### Equal and the same -/

theorem get?_eq_some_iff {s : State} (hs : s.keys.Nodup) {name : String} {x : Value} :
    s.get? name = some x ↔ (name, x) ∈ s.toList :=
  ⟨Entries.mem_of_get?_eq_some, Entries.get?_eq_some_of_mem hs⟩

theorem same_eq_true_iff {s t : State} (hs : s.keys.Nodup) :
    s.same t = true ↔ s.size = t.size ∧
      ∀ name x, s.get? name = some x → ∃ y, t.get? name = some y ∧ x.same y = true := by
  simp only [same, Bool.and_eq_true, beq_iff_eq, List.all_eq_true, Option.any_eq_true, Prod.forall,
    get?_eq_some_iff hs]

/-- Equal in the order are states that have the same fields in the same order, with equal values. -/
theorem compare_eq_some_eq_iff {s t : State} :
    s.compare t = some .eq ↔
      s.keys = t.keys ∧ ∀ name ∈ s.keys, s.compareField t name = some .eq := by
  constructor
  · intro heq
    have h := aligned_of_compare heq
    rw [compare_of_aligned h, compareBySize, Option.map_eq_some_iff] at heq
    obtain ⟨o, hat, ho⟩ := heq
    rw [Ordering.then_eq_eq, Nat.compare_eq_eq] at ho
    obtain ⟨rfl, hsize⟩ := ho
    have hs := sharedKeys_eq_keys.2 (h.subset_iff.2 hsize.ge)
    have ht := sharedKeys_eq_keys.2 (h.symm.subset_iff.2 hsize.le)
    rw [hs, compareAt_eq_some_eq_iff] at hat
    exact ⟨hs.symm.trans (h.1.symm.trans ht), hat⟩
  · rintro ⟨hkeys, hfields⟩
    have hsub : s.keys ⊆ t.keys := hkeys ▸ List.Subset.refl _
    have hs := sharedKeys_eq_keys.2 hsub
    have ht : t.sharedKeys s = t.keys := sharedKeys_eq_keys.2 (hkeys ▸ List.Subset.refl _)
    have h : s.Aligned t := ⟨by rw [hs, ht, hkeys], .inl hsub⟩
    have hsize : t.size = s.size := by rw [← length_keys, ← length_keys, hkeys]
    rw [compare_of_aligned h, compareBySize, hs, compareAt_eq_some_eq_iff.2 hfields, hsize]
    simp

/-- **Two states are the same with their fields in the same order exactly if they are equal in the
order** and no integer of one stands against a float of the other. -/
theorem same_and_keys_eq_iff {s t : State} (hs : s.keys.Nodup) :
    s.same t = true ∧ s.keys = t.keys ↔
      s.compare t = some .eq ∧
        ∀ name x y, s.get? name = some x → t.get? name = some y → x.Unmixed y := by
  rw [same_eq_true_iff hs, compare_eq_some_eq_iff]
  constructor
  · rintro ⟨⟨-, hsame⟩, hkeys⟩
    refine ⟨⟨hkeys, fun name hname => ?_⟩, fun name x y hx hy => ?_⟩
    · obtain ⟨x, hx⟩ := mem_keys_iff.1 hname
      obtain ⟨y, hy, hxy⟩ := hsame name x hx
      exact compareField_eq_some_iff.2 ⟨x, y, hx, hy, Value.compare_of_same hxy⟩
    · obtain ⟨y', hy', hxy⟩ := hsame name x hx
      obtain rfl := Option.some.inj (hy.symm.trans hy')
      exact ((Value.same_iff x y).1 hxy).2
  · rintro ⟨⟨hkeys, hfields⟩, hunmixed⟩
    refine ⟨⟨by rw [← length_keys, ← length_keys, hkeys], fun name x hx => ?_⟩, hkeys⟩
    have hname := mem_keys_iff.2 ⟨x, hx⟩
    obtain ⟨x', y, hx', hy, hxy⟩ := compareField_eq_some_iff.1 (hfields name hname)
    obtain rfl := Option.some.inj (hx.symm.trans hx')
    exact ⟨y, hy, (Value.same_iff x y).2 ⟨hxy, hunmixed name x y hx hy⟩⟩

end State

end VersionedModel
