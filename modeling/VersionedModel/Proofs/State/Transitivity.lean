import VersionedModel.Proofs.State.Order
import VersionedModel.Proofs.Value.Transitivity

/-!
# Chains of states

Two of three states are compared field by field over what these two share, whatever the third has.
So the order of states is not transitive: the fields that decide between two of them may be missing
in the third. It is transitive as far as the fields that all three have are the first to be looked
at (`State.Consistent`), unless the outer two cannot be compared at all (`State.chained_compare`).
-/

namespace VersionedModel

namespace State

variable {s t u : State}

/-! ### Fields that three states have -/

/-- Among the fields that two states share, those that a third has as well come first. -/
def SharedFirst (s t u : State) : Prop :=
  (s.sharedKeys t).filter u.contains <+: s.sharedKeys t

/-- Three states in which the fields that all three have are the first that any two of them share,
and in which numbers meet exactly in these fields. -/
structure Consistent (s t u : State) : Prop where
  /-- What the first and the second share begins with what the third has. -/
  left : SharedFirst s t u
  /-- What the second and the third share begins with what the first has. -/
  right : SharedFirst t u s
  /-- What the first and the third share begins with what the second has. -/
  outer : SharedFirst s u t
  /-- In a field that all three have, no integer is taken for a float that it is not. -/
  exact : ∀ name x y z, s.get? name = some x → t.get? name = some y → u.get? name = some z →
    x.MeetsExactly y ∧ y.MeetsExactly z ∧ x.MeetsExactly z

theorem filter_sharedKeys_comm (s t u : State) :
    (s.sharedKeys u).filter t.contains = (s.sharedKeys t).filter u.contains :=
  List.filter_comm ..

/-- If one of two states has only fields that a third has, this is so for what they share. -/
theorem filter_sharedKeys_eq (h : s.keys ⊆ u.keys ∨ t.keys ⊆ u.keys) :
    (s.sharedKeys t).filter u.contains = s.sharedKeys t := by
  refine List.filter_eq_self.2 fun name hname => contains_iff.2 ?_
  obtain ⟨hs, ht⟩ := List.mem_filter.1 hname
  rcases h with h | h
  · exact h hs
  · exact h (contains_iff.1 ht)

/-- What two states share begins with what a third has as well, and that is all if one of the two
has only fields that the third has. -/
theorem SharedFirst.exists_rest (h : SharedFirst s t u) :
    ∃ names, (s.sharedKeys t).filter u.contains ++ names = s.sharedKeys t ∧
      (s.keys ⊆ u.keys ∨ t.keys ⊆ u.keys → names = []) := by
  obtain ⟨names, hnames⟩ := h
  refine ⟨names, hnames, fun hsub => ?_⟩
  rw [filter_sharedKeys_eq hsub] at hnames
  exact List.self_eq_append_right.1 hnames.symm

/-! ### Chains -/

theorem Consistent.chained_compareAt (h : Consistent s t u) (names : List String) :
    Chained (s.compareAt t names) (t.compareAt u names) (s.compareAt u names) := by
  induction names with
  | nil => exact fun _ _ hst htu _ _ => by cases hst; exact htu
  | cons name names ih =>
    rw [compareAt_cons, compareAt_cons, compareAt_cons]
    refine Chained.firstDifference ?_ fun _ _ => ih
    intro o o' hst htu ho ho'
    obtain ⟨x, y, hx, hy, hxy⟩ := compareField_eq_some_iff.1 hst
    obtain ⟨y', z, hy', hz, hyz⟩ := compareField_eq_some_iff.1 htu
    obtain rfl := Option.some.inj (hy.symm.trans hy')
    obtain ⟨exy, eyz, exz⟩ := h.exact name x y z hx hy hz
    exact compareField_eq_some_iff.2
      ⟨x, z, hx, hz, Value.compare_trans exy eyz exz o o' hxy hyz ho ho'⟩

theorem compareBySize_append (s t : State) (names names' : List String) :
    s.compareBySize t (names ++ names') =
      firstDifference (s.compareAt t names) (s.compareBySize t names') := by
  rw [compareBySize, compareBySize, compareAt_append]
  cases s.compareAt t names with
  | none => rfl
  | some o => cases o <;> rfl

theorem compareBySize_nil (s t : State) :
    s.compareBySize t [] = some (Ord.compare t.size s.size) :=
  rfl

/-- Behind the fields that all three have, it is the sizes that decide between aligned states. Only
where the last one has the fewest fields may the first two share more. -/
theorem chained_compareBySize {names names' names'' : List String}
    (hst : s.size ≤ u.size ∨ t.size ≤ u.size → names = [])
    (htu : t.size ≤ s.size ∨ u.size ≤ s.size → names' = [])
    (hsu : s.size ≤ t.size ∨ u.size ≤ t.size → names'' = []) :
    Chained (s.compareBySize t names) (t.compareBySize u names') (s.compareBySize u names'') := by
  intro o o' ho ho' hne hne'
  obtain rfl : names' = [] := by
    refine htu ?_
    by_contra hnot
    rw [hst (by omega), compareBySize_nil] at ho
    cases ho
    exact hne (Nat.compare_eq_gt.2 (by omega))
  rw [compareBySize_nil] at ho'
  cases ho'
  have hut : u.size ≤ t.size := Nat.compare_ne_gt.1 hne'
  rw [hsu (.inr hut), compareBySize_nil]
  by_cases hle : s.size ≤ u.size ∨ t.size ≤ u.size
  · rw [hst hle, compareBySize_nil] at ho
    cases ho
    have hts : t.size ≤ s.size := Nat.compare_ne_gt.1 hne
    rcases hts.lt_or_eq with hlt | heq
    · rw [Nat.compare_eq_lt.2 hlt, Nat.compare_eq_lt.2 (hut.trans_lt hlt)]
      rfl
    · rw [heq, Nat.compare_eq_eq.2 rfl]
      rfl
  · obtain ⟨hus, hut⟩ : u.size < s.size ∧ u.size < t.size := by omega
    rw [Nat.compare_eq_lt.2 hus, Nat.compare_eq_lt.2 hut]
    cases o <;> trivial

/-- **States that are aligned and consistent are ordered as a chain.** -/
theorem chained_compare (h : Consistent s t u) (asu : s.Aligned u) :
    Chained (s.compare t) (t.compare u) (s.compare u) := by
  intro o o' hst htu
  have ast := aligned_of_compare hst
  have atu := aligned_of_compare htu
  revert o o' hst htu
  -- All three pairs begin with the same fields.
  obtain ⟨names, hnames, hst⟩ := h.left.exists_rest
  obtain ⟨names', hnames', htu⟩ := h.right.exists_rest
  obtain ⟨names'', hnames'', hsu⟩ := h.outer.exists_rest
  rw [filter_sharedKeys_comm t s u, ast.1] at hnames'
  rw [filter_sharedKeys_comm s t u] at hnames''
  rw [asu.subset_iff, atu.subset_iff] at hst
  rw [ast.symm.subset_iff, asu.symm.subset_iff] at htu
  rw [ast.subset_iff, atu.symm.subset_iff] at hsu
  rw [compare_of_aligned ast, compare_of_aligned atu, compare_of_aligned asu, ← hnames, ← hnames',
    ← hnames'', compareBySize_append, compareBySize_append, compareBySize_append]
  exact (h.chained_compareAt _).firstDifference fun _ _ => chained_compareBySize hst htu hsu

end State

end VersionedModel
