import VersionedModel.Proofs.Model.Snapshots

/-!
# Models that show the same

A nested instance that was never written and one that was opened and holds nothing are two
storages, but no reading tells them apart. Storages agree if they hold the same at every depth in
this sense (`Storage.Agree`); models that agree and differ in nothing else show the same, whatever
is read of them (`Model.Agree.sameView`).
-/

namespace VersionedModel

open Schema (Everywhere)

/-- The binding tables of the schema and of those that it nests are well formed. -/
abbrev Schema.Sound (s : Schema) : Prop :=
  Everywhere (fun t => Bindings.WellFormed t.bindings) s

theorem Schema.sound_of_compiled {s : Schema} (h : Everywhere Compiled s) : s.Sound :=
  h.mono fun _ => Compiled.wellFormed

theorem Schema.mem_of_resolve? {s : Schema} {name : String} {p : Primary (Component Schema)}
    (h : s.resolve? name = some p) : p ∈ s.primaries :=
  Bindings.mem_primaries_of_resolve? h

/-- A leaf and a nested model are not kept in the same slot. -/
theorem Schema.Sound.slot_ne {s t : Schema} (hs : s.Sound) {p q : Primary (Component Schema)}
    (hp : p ∈ s.primaries) (hq : q ∈ s.primaries) (hleaf : p.target.schema? = none)
    (hmodel : q.target.schema? = some t) : p.slot ≠ q.slot := fun he => by
  rw [← hs.here.eq_of_slot_eq hp hq he, hleaf] at hmodel
  cases hmodel

namespace Storage

/-! ### Slots -/

theorem stored?_set_of_ne {slots : List Slot} {i j : Nat} (h : i ≠ j) (x : Slot) :
    stored? (slots.set i x) j = stored? slots j := by
  rw [stored?, stored?, List.getElem?_set_ne h]

theorem inner_set_of_ne {slots : List Slot} {i j : Nat} (h : i ≠ j) (t : Schema) (x : Slot) :
    inner t (slots.set i x) j = inner t slots j := by
  rw [inner, inner, List.getElem?_set_ne h]

theorem inner_set_opened {slots : List Slot} {i : Nat} (h : i < slots.length) (t : Schema)
    (changed : List Slot) : inner t (slots.set i (.opened changed)) i = changed := by
  rw [inner, List.getElem?_set_self h]

/-! ### Agreement -/

/-- The leaves hold the same values, and the nested instances agree. -/
inductive Agree : Schema → List Slot → List Slot → Prop
  | intro {s : Schema} {a b : List Slot}
      (leaf : ∀ p ∈ s.primaries, p.target.schema? = none → stored? b p.slot = stored? a p.slot)
      (nested : ∀ p ∈ s.primaries, ∀ t, p.target.schema? = some t →
        Agree t (inner t a p.slot) (inner t b p.slot)) :
      Agree s a b

theorem Agree.refl {P : Schema → Prop} {s : Schema} (hs : Everywhere P s) (a : List Slot) :
    Agree s a a := by
  induction hs generalizing a with
  | intro _ _ ih => exact .intro (fun _ _ _ => rfl) fun p hp t ht => ih p hp t ht _

theorem Agree.trans {s : Schema} {a b c : List Slot} (h : Agree s a b) (h' : Agree s b c) :
    Agree s a c := by
  induction h generalizing c with
  | intro leaf _ ih =>
    cases h' with
    | intro leaf' nested' =>
      exact .intro (fun p hp hk => (leaf' p hp hk).trans (leaf p hp hk))
        fun p hp t ht => ih p hp t ht (nested' p hp t ht)

/-- What agrees with the nested instance in a slot may take its place. -/
theorem Agree.set_opened {s t : Schema} (hs : s.Sound) {a changed : List Slot}
    {p : Primary (Component Schema)} (hp : p ∈ s.primaries) (ht : p.target.schema? = some t)
    (h : Agree t (inner t a p.slot) changed) : Agree s a (a.set p.slot (.opened changed)) := by
  by_cases hlt : p.slot < a.length
  · refine .intro (fun q hq hleaf => ?_) fun q hq u hu => ?_
    · exact stored?_set_of_ne (hs.slot_ne hq hp hleaf ht).symm _
    · by_cases hslot : p.slot = q.slot
      · obtain rfl := hs.here.eq_of_slot_eq hp hq hslot
        obtain rfl := Option.some.inj (ht.symm.trans hu)
        rwa [inner_set_opened hlt]
      · rw [inner_set_of_ne hslot]
        exact .refl (hs.nested hq hu) _
  · -- A slot that is not there cannot be written.
    rw [List.set_eq_of_length_le (Nat.not_lt.1 hlt)]
    exact .refl hs a

end Storage

/-! ### What a model shows -/

/-- What is shown of a field: its value, that it has none, or a nested model with its states and
snapshots. -/
inductive View where
  /-- A value. -/
  | value (v : Value)
  /-- No value. -/
  | missing
  /-- A nested model. -/
  | model (schema : Schema) (state : Workspace → State)
      (snapshot : Workspace → Option Value → Settings → Except Error State)

/-- What is shown of a field that is read. -/
def Read.view : Read → View
  | .value v => .value v
  | .missing => .missing
  | .model n => .model n.schema (fun w => n.state w) fun w fill call => n.snapshot? w fill call

namespace Model

/-- Nothing that is read of two models tells them apart. -/
structure SameView (m m' : Model) : Prop where
  /-- The schema. -/
  schema : m'.schema = m.schema
  /-- The name. -/
  name : m'.name = m.name
  /-- The defaults. -/
  defaults : m'.defaults = m.defaults
  /-- The settings. -/
  settings : m'.settings = m.settings
  /-- What is at the end of any chain of names or aliases. -/
  readAt : ∀ names, Read.view <$> m'.readAt names = Read.view <$> m.readAt names
  /-- The values of fields. -/
  get : ∀ w name, m'.get w name = m.get w name
  /-- The state. -/
  state : ∀ w, m'.state w = m.state w
  /-- Every snapshot. -/
  snapshot : ∀ w fill call, m'.snapshot? w fill call = m.snapshot? w fill call

/-- The models differ at most in storages that agree. -/
structure Agree (m m' : Model) : Prop where
  /-- The rest. -/
  eq : m' = { m with slots := m'.slots }
  /-- The storages. -/
  slots : Storage.Agree m.schema m.slots m'.slots

theorem Agree.ofSlots {t : Schema} {a b : List Slot} (h : Storage.Agree t a b) :
    (ofSlots t a).Agree (ofSlots t b) :=
  ⟨rfl, h⟩

section Readings

variable {m m' : Model} (h : m.Agree m')
include h

/-- A primary gives the same, or nested models that agree. -/
theorem Agree.readPrimary {p : Primary (Component Schema)} (hp : p ∈ m.schema.primaries)
    (name : String) :
    m'.readPrimary p name = m.readPrimary p name ∨
      ∃ n n', n.Agree n' ∧ m.readPrimary p name = .model n ∧ m'.readPrimary p name = .model n' := by
  obtain ⟨heq, hslots⟩ := h
  cases hslots with
  | intro leaf nested =>
    rw [heq, Model.readPrimary, Model.readPrimary]
    cases hk : p.target.kind with
    | model t =>
      exact .inr ⟨_, _, .ofSlots (nested p hp t (Component.schema?_eq_some_iff.2 hk)), rfl, rfl⟩
    | leaf k =>
      dsimp only
      rw [leaf p hp (Component.schema?_eq_none_iff.2 ⟨k, hk⟩)]
      exact .inl rfl

theorem Agree.schema_eq : m'.schema = m.schema := by
  rw [h.eq]

theorem Agree.settings_eq : m'.settings = m.settings := by
  rw [h.eq]

/-- Who takes part does not depend on the storage. -/
theorem Agree.filter_admits (w : Workspace) (call : Settings) :
    m'.schema.primaries.filter (m'.admits w call) =
      m.schema.primaries.filter (m.admits w call) := by
  rw [admits_congr h.schema_eq h.settings_eq, h.schema_eq]

end Readings

/-- What holds of two models that agree if it holds of what they nest, holds of all that agree. -/
theorem Agree.induction {motive : Model → Model → Prop}
    (step : ∀ m m' : Model, m.Agree m' →
      (∀ p ∈ m.schema.primaries, ∀ n n', m.readPrimary p p.name = .model n →
        m'.readPrimary p p.name = .model n' → motive n n') → motive m m')
    {m m' : Model} (h : m.Agree m') : motive m m' := by
  have hslots := h.slots
  generalize hs : m.schema = s at hslots
  generalize ha : m.slots = a at hslots
  generalize hb : m'.slots = b at hslots
  induction hslots generalizing m m' with
  | @intro s a b _ nested ih =>
    subst hs ha hb
    refine step m m' h fun p hp n n' hn hn' => ?_
    rw [Model.readPrimary] at hn hn'
    cases hk : p.target.kind with
    | model t =>
      have ht := Component.schema?_eq_some_iff.2 hk
      rw [hk] at hn hn'
      cases hn
      cases hn'
      exact ih p hp t ht (.ofSlots (nested p hp t ht)) rfl rfl rfl
    | leaf k =>
      -- A leaf never gives a model.
      rw [hk] at hn
      cases hr : (Storage.stored? m.slots p.slot).or (m.defaultFor p p.name) <;>
        (rw [hr] at hn; cases hn)

theorem Agree.snapshot?_eq {m m' : Model} (h : m.Agree m') (w : Workspace)
    (fill : Option Value) : ∀ call, m'.snapshot? w fill call = m.snapshot? w fill call := by
  refine h.induction (motive := fun m m' => ∀ call,
    m'.snapshot? w fill call = m.snapshot? w fill call) fun m m' h ih call => ?_
  rw [Model.snapshot?_eq w m', Model.snapshot?_eq w m, h.filter_admits, h.settings_eq]
  congr 1
  refine Outcome.mapM_congr fun p hp => ?_
  have hp := (List.mem_filter.1 hp).1
  rcases h.readPrimary hp p.name with hr | ⟨n, n', -, hn, hn'⟩
  · rw [hr]
  · rw [hn, hn']
    dsimp only
    rw [ih p hp n n' hn hn']

theorem Agree.state_eq {m m' : Model} (h : m.Agree m') (w : Workspace) :
    m'.state w = m.state w := by
  refine h.induction (motive := fun m m' => m'.state w = m.state w) fun m m' h ih => ?_
  rw [Model.state_eq, Model.state_eq, h.filter_admits]
  congr 1
  refine List.map_congr_left fun p hp => ?_
  have hp := (List.mem_filter.1 hp).1
  rcases h.readPrimary hp p.name with hr | ⟨n, n', -, hn, hn'⟩
  · rw [hr]
  · rw [hn, hn', valueOf, valueOf, ih p hp n n' hn hn']

/-- A name gives the same, or nested models that agree. -/
theorem Agree.read {m m' : Model} (h : m.Agree m') (name : String) :
    m'.read name = m.read name ∨
      ∃ n n', n.Agree n' ∧ m.read name = .ok (.model n) ∧ m'.read name = .ok (.model n') := by
  rw [Model.read, Model.read, h.schema_eq, Storage.primary]
  cases hp : m.schema.resolve? name with
  | none => exact .inl rfl
  | some p =>
    rcases h.readPrimary (Schema.mem_of_resolve? hp) name with hr | ⟨n, n', hagree, hn, hn'⟩
    · exact .inl (congrArg Except.ok hr)
    · exact .inr ⟨n, n', hagree, congrArg Except.ok hn, congrArg Except.ok hn'⟩

theorem Agree.view_eq {n n' : Model} (h : n.Agree n') :
    (Read.model n').view = (Read.model n).view := by
  rw [Read.view, Read.view, h.schema_eq]
  congr 1
  · exact funext h.state_eq
  · exact funext fun w => funext fun fill => funext (h.snapshot?_eq w fill)

theorem Agree.readAt_view {m m' : Model} (h : m.Agree m') (names : List String) :
    Read.view <$> m'.readAt names = Read.view <$> m.readAt names := by
  induction names generalizing m m' with
  | nil => rfl
  | cons name rest ih =>
    cases rest with
    | nil =>
      rw [readAt, readAt]
      rcases h.read name with hr | ⟨n, n', hagree, hn, hn'⟩
      · rw [hr]
      · rw [hn, hn']
        exact congrArg Except.ok hagree.view_eq
    | cons next rest =>
      rw [readAt, readAt, nested, nested]
      · rcases h.read name with hr | ⟨n, n', hagree, hn, hn'⟩
        -- What is the same model on both sides goes on in the same way.
        · rw [hr]
        · rw [hn, hn']
          exact ih hagree
      · simp
      · simp

/-- **Models that agree show the same.** -/
theorem Agree.sameView {m m' : Model} (h : m.Agree m') : m.SameView m' where
  schema := h.schema_eq
  name := by rw [h.eq]
  defaults := by rw [h.eq]
  settings := h.settings_eq
  readAt := h.readAt_view
  get w name := by
    rw [get, get]
    rcases h.read name with hr | ⟨n, n', hagree, hn, hn'⟩
    · rw [hr]
    · rw [hn, hn']
      exact congrArg (fun st => Except.ok (some (State.toValue st))) (hagree.state_eq w)
  state := h.state_eq
  snapshot := h.snapshot?_eq

end Model

end VersionedModel
