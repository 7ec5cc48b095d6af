import Mathlib.Data.List.Forall2

/-!
# Outcomes of computations that may fail

How a computation that may fail goes on from one step to the next: for those that only answer
(`Except`) and for those that also change a state (`EStateM`), which keep what they did when they
fail.
-/

namespace VersionedModel

variable {ε σ α β : Type}

namespace Outcome

theorem bind_eq_ok {x : Except ε α} {f : α → Except ε β} {b : β} :
    x >>= f = .ok b ↔ ∃ a, x = .ok a ∧ f a = .ok b := by
  cases x with
  | error e => exact ⟨nofun, nofun⟩
  | ok a => exact ⟨fun h => ⟨a, rfl, h⟩, fun ⟨_, h, h'⟩ => by cases h; exact h'⟩

theorem bind_eq_error {x : Except ε α} {f : α → Except ε β} {e : ε} :
    x >>= f = .error e ↔ x = .error e ∨ ∃ a, x = .ok a ∧ f a = .error e := by
  cases x with
  | error e' =>
    constructor
    · rintro ⟨⟩
      exact .inl rfl
    · rintro (h | ⟨_, h, _⟩) <;> cases h
      rfl
  | ok a =>
    refine ⟨fun h => .inr ⟨a, rfl, h⟩, fun h => ?_⟩
    rcases h with h | ⟨_, h, h'⟩
    · cases h
    · cases h
      exact h'

theorem map_eq_ok {x : Except ε α} {f : α → β} {b : β} :
    f <$> x = .ok b ↔ ∃ a, x = .ok a ∧ f a = b := by
  cases x with
  | error e => exact ⟨nofun, nofun⟩
  | ok a => exact ⟨fun h => ⟨a, rfl, Except.ok.inj h⟩, fun ⟨_, h, h'⟩ => by cases h; rw [← h']; rfl⟩

theorem map_eq_error {x : Except ε α} {f : α → β} {e : ε} :
    f <$> x = .error e ↔ x = .error e := by
  cases x with
  | error e' => exact ⟨fun h => by cases h; rfl, fun h => by cases h; rfl⟩
  | ok a => exact ⟨nofun, nofun⟩

theorem mapM_eq_ok {f : α → Except ε β} {as : List α} {bs : List β} :
    as.mapM f = .ok bs ↔ List.Forall₂ (fun a b => f a = .ok b) as bs := by
  induction as generalizing bs with
  | nil =>
    rw [List.mapM_nil, List.forall₂_nil_left_iff]
    exact ⟨fun h => by cases h; rfl, fun h => h ▸ rfl⟩
  | cons a as ih =>
    rw [List.mapM_cons, bind_eq_ok, List.forall₂_cons_left_iff]
    refine exists_congr fun b => ?_
    constructor
    · rintro ⟨ha, h⟩
      obtain ⟨bs', hbs, h⟩ := bind_eq_ok.1 h
      cases h
      exact ⟨bs', ha, ih.1 hbs, rfl⟩
    · rintro ⟨bs', ha, hbs, rfl⟩
      exact ⟨ha, bind_eq_ok.2 ⟨bs', ih.2 hbs, rfl⟩⟩

theorem exists_mapM {f : α → Except ε β} {P : α → β → Prop} {as : List α}
    (h : ∀ a ∈ as, ∃ b, f a = .ok b ∧ P a b) :
    ∃ bs, as.mapM f = .ok bs ∧ List.Forall₂ P as bs := by
  induction as with
  | nil => exact ⟨[], rfl, .nil⟩
  | cons a as ih =>
    obtain ⟨⟨b, ha, hp⟩, has⟩ := List.forall_mem_cons.1 h
    obtain ⟨bs, hbs, hps⟩ := ih has
    refine ⟨b :: bs, ?_, .cons hp hps⟩
    rw [List.mapM_cons, ha, hbs]
    rfl

theorem mapM_congr {f g : α → Except ε β} {as : List α} (h : ∀ a ∈ as, f a = g a) :
    as.mapM f = as.mapM g := by
  induction as with
  | nil => rfl
  | cons a as ih =>
    rw [List.mapM_cons, List.mapM_cons, h a List.mem_cons_self,
      ih fun b hb => h b (List.mem_cons_of_mem a hb)]

/-- The failure of a computation, if it fails. -/
def failure? : Except ε α → Option ε
  | .ok _ => none
  | .error e => some e

theorem failure?_eq_some_iff {x : Except ε α} {e : ε} : failure? x = some e ↔ x = .error e := by
  cases x <;> simp [failure?]

theorem failure?_map (f : α → β) (x : Except ε α) : failure? (f <$> x) = failure? x := by
  cases x <;> rfl

theorem failure?_bind_pure (f : α → β) (x : Except ε α) :
    failure? (x >>= fun a => pure (f a)) = failure? x := by
  cases x <;> rfl

/-- The first failure counts. -/
theorem failure?_mapM {f : α → Except ε β} {g : α → Option ε} {as : List α}
    (h : ∀ a ∈ as, failure? (f a) = g a) : failure? (as.mapM f) = as.findSome? g := by
  induction as with
  | nil => rfl
  | cons a as ih =>
    obtain ⟨ha, has⟩ := List.forall_mem_cons.1 h
    rw [List.mapM_cons, List.findSome?_cons, ← ha, ← ih has]
    cases f a with
    | error e => rfl
    | ok b => exact failure?_bind_pure (b :: ·) (as.mapM f)

theorem forM_eq_ok {f : α → Except ε Unit} {as : List α} :
    as.forM f = .ok () ↔ ∀ a ∈ as, f a = .ok () := by
  induction as with
  | nil => exact ⟨fun _ => nofun, fun _ => rfl⟩
  | cons a as ih =>
    rw [List.forM_eq_forM, List.forM_cons, bind_eq_ok, List.forall_mem_cons, ← ih]
    exact ⟨fun ⟨_, ha, has⟩ => ⟨ha, has⟩, fun ⟨ha, has⟩ => ⟨(), ha, has⟩⟩

/-- The first failure counts. -/
theorem forM_eq_error {f : α → Except ε Unit} {as : List α} {e : ε} :
    as.forM f = .error e ↔
      ∃ (i : Nat) (a : α), as[i]? = some a ∧ f a = .error e ∧
        ∀ j < i, ∀ b, as[j]? = some b → f b = .ok () := by
  induction as with
  | nil => exact ⟨nofun, fun ⟨i, a, h, _⟩ => by cases h⟩
  | cons a as ih =>
    rw [List.forM_eq_forM, List.forM_cons, bind_eq_error]
    constructor
    · rintro (ha | ⟨_, ha, has⟩)
      · exact ⟨0, a, rfl, ha, nofun⟩
      · obtain ⟨i, b, hb, he, hbefore⟩ := ih.1 has
        refine ⟨i + 1, b, hb, he, fun j hj c hc => ?_⟩
        cases j with
        | zero =>
          cases hc
          exact ha
        | succ j => exact hbefore j (Nat.lt_of_succ_lt_succ hj) c hc
    · rintro ⟨i, b, hb, he, hbefore⟩
      cases i with
      | zero =>
        cases hb
        exact .inl he
      | succ i =>
        exact .inr ⟨(), hbefore 0 (Nat.succ_pos i) a rfl, ih.2 ⟨i, b, hb, he,
          fun j hj c hc => hbefore (j + 1) (Nat.succ_lt_succ hj) c hc⟩⟩

theorem bind_apply (x : EStateM ε σ α) (f : α → EStateM ε σ β) (s : σ) :
    (x >>= f) s =
      match x s with
      | .ok a s' => f a s'
      | .error e s' => .error e s' := by
  change EStateM.bind x f s = _
  unfold EStateM.bind
  cases x s <;> rfl

theorem bind_apply_eq_ok {x : EStateM ε σ α} {f : α → EStateM ε σ β} {s s'' : σ} {b : β} :
    (x >>= f) s = .ok b s'' ↔ ∃ a s', x s = .ok a s' ∧ f a s' = .ok b s'' := by
  rw [bind_apply]
  cases x s with
  | ok a s' => exact ⟨fun h => ⟨a, s', rfl, h⟩, fun ⟨_, _, h, h'⟩ => by cases h; exact h'⟩
  | error e s' => exact ⟨nofun, nofun⟩

theorem bind_apply_eq_error {x : EStateM ε σ α} {f : α → EStateM ε σ β} {s s'' : σ} {e : ε} :
    (x >>= f) s = .error e s'' ↔
      x s = .error e s'' ∨ ∃ a s', x s = .ok a s' ∧ f a s' = .error e s'' := by
  rw [bind_apply]
  cases x s with
  | ok a s' =>
    refine ⟨fun h => .inr ⟨a, s', rfl, h⟩, ?_⟩
    rintro (h | ⟨_, _, h, h'⟩)
    · cases h
    · cases h
      exact h'
  | error e' s' =>
    constructor
    · intro h
      cases h
      exact .inl rfl
    · rintro (h | ⟨_, _, h, _⟩) <;> cases h
      rfl

theorem foldlM_append_apply_eq_ok {f : β → α → EStateM ε σ β} {as as' : List α} {b b'' : β}
    {s s'' : σ} :
    (as ++ as').foldlM f b s = .ok b'' s'' ↔
      ∃ b' s', as.foldlM f b s = .ok b' s' ∧ as'.foldlM f b' s' = .ok b'' s'' := by
  rw [List.foldlM_append, bind_apply_eq_ok]

/-- What stands before the first failure succeeds. -/
theorem exists_of_foldlM_apply_eq_error {f : β → α → EStateM ε σ β} {as : List α} {b : β}
    {s s'' : σ} {e : ε} (h : as.foldlM f b s = .error e s'') :
    ∃ before a after b' s', as = before ++ a :: after ∧ before.foldlM f b s = .ok b' s' ∧
      f b' a s' = .error e s'' := by
  induction as generalizing b s with
  | nil => cases h
  | cons a as ih =>
    rw [List.foldlM_cons] at h
    rcases bind_apply_eq_error.1 h with h | ⟨b₁, s₁, ha, h⟩
    · exact ⟨[], a, as, b, s, rfl, rfl, h⟩
    · obtain ⟨before, a', after, b', s', rfl, hbefore, ha'⟩ := ih h
      refine ⟨a :: before, a', after, b', s', rfl, ?_, ha'⟩
      rw [List.foldlM_cons]
      exact bind_apply_eq_ok.2 ⟨b₁, s₁, ha, hbefore⟩

theorem get_apply (s : σ) : (get : EStateM ε σ σ) s = .ok s s := rfl

/-- What a computation leaves of a state, whether it fails or not. -/
def left (x : EStateM ε σ α) (s : σ) : σ :=
  match x s with
  | .ok _ s' => s'
  | .error _ s' => s'

/-- What a computation answers, whatever it leaves of the state. -/
def answer (x : EStateM ε σ α) (s : σ) : Except ε α :=
  match x s with
  | .ok a _ => .ok a
  | .error e _ => .error e

theorem answer_eq_error_iff {x : EStateM ε σ α} {s : σ} {e : ε} :
    answer x s = .error e ↔ ∃ s', x s = .error e s' := by
  rw [answer]
  cases x s with
  | ok a s' => exact ⟨nofun, fun ⟨_, h⟩ => by cases h⟩
  | error e' s' => exact ⟨fun h => by cases h; exact ⟨s', rfl⟩, fun ⟨_, h⟩ => by cases h; rfl⟩

theorem answer_bind (x : EStateM ε σ α) (f : α → EStateM ε σ β) (s : σ) :
    answer (x >>= f) s = answer x s >>= fun a => answer (f a) (left x s) := by
  rw [answer, bind_apply, answer, left]
  cases x s <;> rfl

/-- What comes after a failure does nothing. -/
theorem left_bind (x : EStateM ε σ α) (f : α → EStateM ε σ β) (s : σ) :
    left (x >>= f) s =
      match answer x s with
      | .ok a => left (f a) (left x s)
      | .error _ => left x s := by
  rw [left, bind_apply, answer, left]
  cases x s <;> rfl

theorem tryCatch_apply (x : EStateM ε σ α) (handler : ε → EStateM ε σ α) (s : σ) :
    tryCatch x handler s =
      match x s with
      | .ok a s' => .ok a s'
      | .error e s' => handler e s' := by
  change EStateM.tryCatch x handler s = _
  unfold EStateM.tryCatch
  cases x s <;> rfl

/-- Two changes do the same to a state: both succeed and leave the same, or both fail and leave it
as it is. -/
def Alike (f g : EStateM ε σ Unit) (s : σ) : Prop :=
  (∃ s', f s = .ok () s' ∧ g s = .ok () s') ∨ ∃ e e', f s = .error e s ∧ g s = .error e' s

theorem not_alike_of_ne {f g : EStateM ε σ Unit} {s a b : σ} (hf : f s = .ok () a)
    (hg : g s = .ok () b) (hne : a ≠ b) : ¬Alike f g s := by
  rw [Alike, hf, hg]
  rintro (⟨s', ha, hb⟩ | ⟨e, e', he, -⟩)
  · cases ha
    cases hb
    exact hne rfl
  · cases he

end Outcome

end VersionedModel
