import Mathlib.Data.List.Nodup

/-!
# First appearances

What is left of a list when each value stays only where it first came (`List.eraseDups`): the values
are different (`nodup_eraseDups`) and stand in the order of their first places
(`pairwise_idxOf_eraseDups`).
-/

namespace VersionedModel

variable {α : Type} [BEq α] [LawfulBEq α]

/-- Leaving some values out does not change in which order the others first come. -/
theorem eraseDups_filter (p : α → Bool) (l : List α) :
    (l.filter p).eraseDups = l.eraseDups.filter p := by
  match l with
  | [] => rfl
  | a :: l =>
    rw [List.eraseDups_cons]
    by_cases ha : p a = true
    · rw [List.filter_cons_of_pos ha, List.filter_cons_of_pos ha, List.eraseDups_cons,
        ← eraseDups_filter p (l.filter fun b => !b == a), List.filter_filter, List.filter_filter]
      simp only [Bool.and_comm]
    · rw [List.filter_cons_of_neg ha, List.filter_cons_of_neg ha,
        ← eraseDups_filter p (l.filter fun b => !b == a), List.filter_filter]
      refine congrArg List.eraseDups (List.filter_congr fun b _ => ?_)
      by_cases hb : b = a
      · simp [hb, ha]
      · simp [hb]
termination_by l.length
decreasing_by all_goals exact Nat.lt_succ_of_le (List.length_filter_le _ _)

theorem eraseDups_append_congr {l m : List α} (k : List α) (h : l.eraseDups = m.eraseDups) :
    (k ++ l).eraseDups = (k ++ m).eraseDups := by
  rw [List.eraseDups_append, List.eraseDups_append, List.removeAll, List.removeAll,
    eraseDups_filter, eraseDups_filter, h]

/-- Values that come first come in the order of their places. -/
theorem pairwise_idxOf_eraseDups (l : List α) :
    l.eraseDups.Pairwise fun a b => l.idxOf a < l.idxOf b := by
  match l with
  | [] => exact .nil
  | a :: l =>
    rw [List.eraseDups_cons, List.pairwise_cons]
    have hne : ∀ b ∈ (l.filter fun b => !b == a).eraseDups, b ≠ a := by
      intro b hb
      simpa using (List.mem_filter.1 (List.mem_eraseDups.1 hb)).2
    have hidx : ∀ b, b ≠ a → (a :: l).idxOf b = l.idxOf b + 1 := by
      intro b hb
      rw [List.idxOf_cons, beq_eq_false_iff_ne.2 (Ne.symm hb)]
      rfl
    refine ⟨fun b hb => by rw [hidx b (hne b hb)]; simp, ?_⟩
    rw [eraseDups_filter]
    refine (pairwise_idxOf_eraseDups l).filter _ |>.imp_of_mem fun {b c} hb hc hlt => ?_
    rw [← eraseDups_filter] at hb hc
    rw [hidx b (hne b hb), hidx c (hne c hc)]
    exact Nat.succ_lt_succ hlt
termination_by l.length

theorem nodup_eraseDups (l : List α) : l.eraseDups.Nodup :=
  (pairwise_idxOf_eraseDups l).imp fun hlt => by
    rintro rfl
    exact Nat.lt_irrefl _ hlt

theorem eraseDups_of_nodup {l : List α} (h : l.Nodup) : l.eraseDups = l := by
  induction l with
  | nil => rfl
  | cons a l ih =>
    obtain ⟨ha, hl⟩ := List.nodup_cons.1 h
    rw [List.eraseDups_cons, List.filter_eq_self.2, ih hl]
    intro b hb
    have hne : b ≠ a := by
      rintro rfl
      exact ha hb
    simpa using hne

theorem eraseDups_eq_singleton {a : α} {l : List α} (hl : l ≠ []) (h : ∀ b ∈ l, b = a) :
    l.eraseDups = [a] := by
  match l with
  | b :: l =>
    obtain rfl := h b List.mem_cons_self
    rw [List.eraseDups_cons, List.filter_eq_nil_iff.2]
    · rfl
    · intro c hc
      simpa using h c (List.mem_cons_of_mem b hc)

/-- Groups of values that are alike come in the order of the groups. -/
theorem eraseDups_flatMap {g : α → List α} {l : List α} (hl : l.Nodup) (hne : ∀ a ∈ l, g a ≠ [])
    (heq : ∀ a, ∀ b ∈ g a, b = a) : (l.flatMap g).eraseDups = l := by
  induction l with
  | nil => rfl
  | cons a l ih =>
    obtain ⟨ha, hl⟩ := List.nodup_cons.1 hl
    obtain ⟨hga, hne⟩ := List.forall_mem_cons.1 hne
    rw [List.flatMap_cons, List.eraseDups_append, eraseDups_eq_singleton hga (heq a),
      List.removeAll, List.filter_eq_self.2, ih hl hne]
    · rfl
    · -- The groups behind are others.
      intro b hb
      obtain ⟨c, hc, hb⟩ := List.mem_flatMap.1 hb
      have hnot : b ∉ g a := by
        intro hba
        rw [heq c b hb] at hba
        exact ha (heq a c hba ▸ hc)
      simpa using hnot

end VersionedModel
