import VersionedModel.Proofs.Model.Histories

/-!
# Changes of storages that agree

Storages that fit a schema and agree cannot be told apart by changing them: whatever is done to
both answers the same, and leaves storages that fit and agree (`Storage.compositional_respects`). So
it is with whatever is tried on instances (`Model.respects_run`).

A cleared storage agrees with every cleared storage, whichever nested instances were opened in
either (`Storage.agree_clearAll`).
-/

namespace VersionedModel

open Schema (Everywhere)

namespace Storage

/-- Two storages fit and agree. -/
structure Indistinct (s : Schema) (a b : List Slot) : Prop where
  /-- They hold the same. -/
  agree : Agree s a b
  /-- The first one fits. -/
  left : Fits s a
  /-- The second one fits. -/
  right : Fits s b

theorem Indistinct.refl {s : Schema} {a : List Slot} (hs : s.Sound) (h : Fits s a) :
    Indistinct s a a :=
  ⟨.refl hs a, h, h⟩

theorem Indistinct.trans {s : Schema} {a b c : List Slot} (h : Indistinct s a b)
    (h' : Indistinct s b c) : Indistinct s a c :=
  ⟨h.agree.trans h'.agree, h.left, h'.right⟩

section Indistinct

variable {s t : Schema} {a b : List Slot} {p : Primary (Component Schema)}

theorem Indistinct.nested (h : Indistinct s a b) (hp : p ∈ s.primaries)
    (ht : p.target.schema? = some t) : Indistinct t (inner t a p.slot) (inner t b p.slot) := by
  refine ⟨?_, h.left.nested hp ht, h.right.nested hp ht⟩
  cases h.agree with
  | intro _ nested => exact nested p hp t ht

/-- The same value may be stored in both. -/
theorem Indistinct.set_leaf (h : Indistinct s a b) (hs : s.Sound) (hp : p ∈ s.primaries)
    (hk : p.target.schema? = none) (v : Option Value) :
    Indistinct s (a.set p.slot (.leaf v)) (b.set p.slot (.leaf v)) := by
  refine ⟨?_, h.left.set_leaf hs hp hk v, h.right.set_leaf hs hp hk v⟩
  cases h.agree with
  | intro leaf nested =>
    refine .intro (fun q hq hleaf => ?_) fun q hq u hu => ?_
    · by_cases hslot : p.slot = q.slot
      · rw [stored?, stored?, ← hslot, List.getElem?_set_self (h.left.slot_lt hs hp),
          List.getElem?_set_self (h.right.slot_lt hs hp)]
      · rw [stored?_set_of_ne hslot, stored?_set_of_ne hslot, leaf q hq hleaf]
    · have hslot := hs.slot_ne hp hq hk hu
      rw [inner_set_of_ne hslot, inner_set_of_ne hslot]
      exact nested q hq u hu

/-- Nested instances that cannot be told apart may be put into both. -/
theorem Indistinct.set_opened (h : Indistinct s a b) (hs : s.Sound) (hp : p ∈ s.primaries)
    (ht : p.target.schema? = some t) {changed changed' : List Slot}
    (hc : Indistinct t changed changed') :
    Indistinct s (a.set p.slot (.opened changed)) (b.set p.slot (.opened changed')) := by
  refine ⟨?_, h.left.set_opened hs hp ht hc.left, h.right.set_opened hs hp ht hc.right⟩
  cases h.agree with
  | intro leaf nested =>
    refine .intro (fun q hq hleaf => ?_) fun q hq u hu => ?_
    · have hslot := (hs.slot_ne hq hp hleaf ht).symm
      rw [stored?_set_of_ne hslot, stored?_set_of_ne hslot, leaf q hq hleaf]
    · by_cases hslot : p.slot = q.slot
      · obtain rfl := hs.here.eq_of_slot_eq hp hq hslot
        obtain rfl := Option.some.inj (ht.symm.trans hu)
        rw [inner_set_opened (h.left.slot_lt hs hp), inner_set_opened (h.right.slot_lt hs hp)]
        exact hc.agree
      · rw [inner_set_of_ne hslot, inner_set_of_ne hslot]
        exact nested q hq u hu

end Indistinct

/-! ### Cleared storages -/

/-- **Nothing is left in a cleared storage**, so all of them agree. -/
theorem agree_clearAll {P : Schema → Prop} {s : Schema} (hs : Everywhere P s) (a b : List Slot) :
    Agree s (Slot.clearAll a) (Slot.clearAll b) := by
  induction hs generalizing a b with
  | intro _ _ ih =>
    refine .intro (fun p _ _ => ?_) fun p hp t ht => ?_
    · rw [stored?_clearAll, stored?_clearAll]
    · rw [inner_clearAll, inner_clearAll]
      exact ih p hp t ht _ _

theorem Indistinct.clearAll {s : Schema} {a b : List Slot} (h : Indistinct s a b) (hs : s.Sound) :
    Indistinct s (Slot.clearAll a) (Slot.clearAll b) :=
  ⟨agree_clearAll hs a b, h.left.clearAll hs, h.right.clearAll hs⟩

/-- A cleared storage cannot be told from a new one. -/
theorem indistinct_fresh {s : Schema} {slots : List Slot} (hs : s.Sound) (h : Fits s slots) :
    Indistinct s s.fresh (Slot.clearAll slots) :=
  ⟨clearAll_fresh s ▸ agree_clearAll hs s.fresh slots, fits_fresh hs, h.clearAll hs⟩

/-! ### Changes that do not tell storages apart -/

/-- On storages that cannot be told apart, the change answers the same, and what it leaves of them
cannot be told apart either. -/
def Respects (s : Schema) (change : Change Unit) : Prop :=
  ∀ a b, Indistinct s a b → Outcome.answer change b = Outcome.answer change a ∧
    Indistinct s (Outcome.left change a) (Outcome.left change b)

/-- **Loads and writes do not tell storages apart**, since what they are made of does not. -/
theorem compositional_respects : Compositional Respects where
  pure _ _ _ h := ⟨rfl, h⟩
  throw _ _ _ _ h := ⟨rfl, h⟩
  bind {s c d} hc hd a b h := by
    obtain ⟨hanswer, hleft⟩ := hc a b h
    rw [Outcome.answer_bind, Outcome.answer_bind, Outcome.left_bind, Outcome.left_bind, hanswer]
    cases Outcome.answer c a with
    | ok u => exact hd _ _ hleft
    | error e => exact ⟨rfl, hleft⟩
  store hs hp hk v _ _ h := ⟨rfl, h.set_leaf hs hp hk v⟩
  within hs hp ht hc a b h := by
    obtain ⟨hanswer, hleft⟩ := hc _ _ (h.nested hp ht)
    rw [answer_within, answer_within, left_within, left_within]
    exact ⟨hanswer, h.set_opened hs hp ht hleft⟩
  clear _ hs _ _ h := ⟨rfl, h.clearAll hs⟩

end Storage

namespace Model

/-! ### Updates that do not tell instances apart -/

/-- Two instances differ at most in storages that cannot be told apart. -/
structure Indistinct (m m' : Model) : Prop where
  /-- The rest. -/
  eq : m' = { m with slots := m'.slots }
  /-- The storages. -/
  slots : Storage.Indistinct m.schema m.slots m'.slots

theorem Indistinct.agree {m m' : Model} (h : m.Indistinct m') : m.Agree m' :=
  ⟨h.eq, h.slots.agree⟩

theorem Indistinct.schema_eq {m m' : Model} (h : m.Indistinct m') : m'.schema = m.schema :=
  h.agree.schema_eq

theorem Indistinct.refl {m : Model} (hs : m.schema.Sound) (h : Storage.Fits m.schema m.slots) :
    m.Indistinct m :=
  ⟨rfl, .refl hs h⟩

theorem Indistinct.trans {m m' m'' : Model} (h : m.Indistinct m') (h' : m'.Indistinct m'') :
    m.Indistinct m'' := by
  refine ⟨?_, h.slots.trans (h.schema_eq ▸ h'.slots)⟩
  rw [h'.eq, h.eq]

/-- On instances that cannot be told apart, the update answers the same, and what it leaves of them
cannot be told apart either. -/
def Respects (u : Update Unit) : Prop :=
  ∀ m m', m.schema.Sound → m.Indistinct m' → Outcome.answer u m' = Outcome.answer u m ∧
    (Outcome.left u m).Indistinct (Outcome.left u m')

theorem respects_changing {change : Schema → Storage.Change Unit}
    (h : ∀ s : Schema, s.Sound → Storage.Respects s (change s)) : Respects (changing change) := by
  intro m m' hs hm
  obtain ⟨hanswer, hleft⟩ := h m.schema hs _ _ hm.slots
  rw [answer_changing, answer_changing, left_changing, left_changing, hm.schema_eq]
  refine ⟨hanswer, ?_, hleft⟩
  rw [hm.eq]

/-- What a codec is told does not depend on the storage. -/
theorem Indistinct.context_eq {m m' : Model} (h : m.Indistinct m') (w : Workspace)
    (call : Settings) : m'.context w call = m.context w call := by
  rw [h.eq]
  rfl

theorem Indistinct.serializerFor_eq {m m' : Model} (h : m.Indistinct m') (w : Workspace)
    (t : Target) (call : Settings) : m'.serializerFor w t call = m.serializerFor w t call := by
  rw [h.eq]
  rfl

/-- **Nothing that is tried tells instances apart.** -/
theorem respects_run (a : Attempt) : Respects a.run := by
  intro m m' hs hm
  rcases a.run_cases m with ⟨e, h⟩ | ⟨change, hchange, h⟩
  · have hrun : a.run m = .error e m := h m.slots
    have hrun' : a.run m' = .error e m' := hm.eq ▸ h m'.slots
    rw [Outcome.answer, Outcome.answer, Outcome.left, Outcome.left, hrun, hrun']
    exact ⟨rfl, hm⟩
  · have hrun : a.run m = changing change m := h m.slots
    have hrun' : a.run m' = changing change m' := hm.eq ▸ h m'.slots
    have hrespects : Respects (changing change) :=
      respects_changing (hchange Storage.compositional_respects)
    have hboth := hrespects m m' hs hm
    rw [Outcome.answer, Outcome.answer, Outcome.left, Outcome.left, hrun, hrun']
    exact hboth

/-- Whatever fails leaves an instance that cannot be told apart. -/
theorem indistinct_of_error {m m' : Model} (hs : m.schema.Sound)
    (hfits : Storage.Fits m.schema m.slots) {a : Attempt} {e : Error}
    (h : a.run m = .error e m') : m.Indistinct m' := by
  have hagree := agree_of_error hs h
  obtain ⟨slots, hleft, hkept⟩ := sustains_run a m
  rw [Outcome.left, h] at hleft
  subst hleft
  exact ⟨rfl, hagree.slots, hfits, hkept hs hfits⟩

end Model

end VersionedModel
