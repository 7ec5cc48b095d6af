import Mathlib.Logic.Relation
import VersionedModel.Proofs.Model.Changes
import VersionedModel.Proofs.Model.FailedUpdates

/-!
# What instances go through

An instance is made with something of its own and then updated again and again, directly or through
the nested instances that it holds; an update may fail (`Model.Reachable`). Whatever it went
through, its storage has one slot for each primary, at every depth (`Model.Reachable.fits`), and
another one can be made with what it has of its own (`Model.Reachable.withOptions_eq`).
-/

namespace VersionedModel

namespace Storage

/-! ### Storages that fit -/

/-- There is one slot for each primary, and the storages of nested instances fit, too. -/
inductive Fits : Schema → List Slot → Prop
  | intro {s : Schema} {slots : List Slot} (length_eq : slots.length = s.primaries.length)
      (nested : ∀ p ∈ s.primaries, ∀ t, p.target.schema? = some t → Fits t (inner t slots p.slot)) :
      Fits s slots

theorem Fits.length_eq {s : Schema} {slots : List Slot} (h : Fits s slots) :
    slots.length = s.primaries.length := by
  cases h
  assumption

theorem Fits.nested {s t : Schema} {slots : List Slot} (h : Fits s slots)
    {p : Primary (Component Schema)} (hp : p ∈ s.primaries) (ht : p.target.schema? = some t) :
    Fits t (inner t slots p.slot) := by
  cases h with
  | intro _ nested => exact nested p hp t ht

/-- There is a slot for a primary. -/
theorem Fits.slot_lt {s : Schema} {slots : List Slot} (h : Fits s slots) (hs : s.Sound)
    {p : Primary (Component Schema)} (hp : p ∈ s.primaries) : p.slot < slots.length := by
  rw [h.length_eq]
  exact hs.here.slot_lt hp

/-- Nothing is opened in a new storage. -/
theorem inner_fresh (s t : Schema) (i : Nat) : inner t s.fresh i = t.fresh := by
  rw [inner, Schema.fresh, List.getElem?_map]
  cases s.primaries[i]? with
  | none => rfl
  | some p =>
    rw [Option.map_some, Primary.fresh]
    by_cases hp : p.target.isModel = true
    · rw [if_pos hp]
    · rw [if_neg hp]

theorem fits_fresh {s : Schema} (hs : s.Sound) : Fits s s.fresh := by
  induction hs with
  | intro _ _ ih =>
    refine .intro (List.length_map _) fun p hp t ht => ?_
    rw [inner_fresh]
    exact ih p hp t ht

theorem Fits.set_leaf {s : Schema} {slots : List Slot} (h : Fits s slots) (hs : s.Sound)
    {p : Primary (Component Schema)} (hp : p ∈ s.primaries) (hk : p.target.schema? = none)
    (v : Option Value) : Fits s (slots.set p.slot (.leaf v)) := by
  refine .intro (by rw [List.length_set, h.length_eq]) fun q hq t ht => ?_
  rw [inner_set_of_ne (hs.slot_ne hp hq hk ht)]
  exact h.nested hq ht

theorem Fits.set_opened {s t : Schema} {slots changed : List Slot} (h : Fits s slots)
    (hs : s.Sound) {p : Primary (Component Schema)} (hp : p ∈ s.primaries)
    (ht : p.target.schema? = some t) (hc : Fits t changed) :
    Fits s (slots.set p.slot (.opened changed)) := by
  refine .intro (by rw [List.length_set, h.length_eq]) fun q hq u hu => ?_
  by_cases hslot : p.slot = q.slot
  · obtain rfl := hs.here.eq_of_slot_eq hp hq hslot
    obtain rfl := Option.some.inj (ht.symm.trans hu)
    rwa [inner_set_opened (h.slot_lt hs hp)]
  · rw [inner_set_of_ne hslot]
    exact h.nested hq hu

theorem clearAll_eq_map (slots : List Slot) : Slot.clearAll slots = slots.map Slot.clear := by
  induction slots with
  | nil => rfl
  | cons slot slots ih => rw [Slot.clearAll, ih, List.map_cons]

theorem clear_fresh (p : Primary (Component Schema)) : p.fresh.clear = p.fresh := by
  rw [Primary.fresh]
  split <;> rfl

theorem clearAll_fresh (s : Schema) : Slot.clearAll s.fresh = s.fresh := by
  rw [clearAll_eq_map, Schema.fresh, List.map_map]
  exact List.map_congr_left fun p _ => clear_fresh p

theorem stored?_clearAll (slots : List Slot) (i : Nat) :
    stored? (Slot.clearAll slots) i = none := by
  rw [stored?, clearAll_eq_map, List.getElem?_map]
  rcases slots[i]? with _ | _ | _ | _ <;> rfl

/-- A nested instance is cleared with the one that holds it, whether it was opened or not. -/
theorem inner_clearAll (t : Schema) (slots : List Slot) (i : Nat) :
    inner t (Slot.clearAll slots) i = Slot.clearAll (inner t slots i) := by
  rw [inner, clearAll_eq_map, List.getElem?_map, inner]
  rcases slots[i]? with _ | _ | _ | _ <;> first | rfl | exact (clearAll_fresh t).symm

theorem Fits.clearAll {s : Schema} {slots : List Slot} (h : Fits s slots) (hs : s.Sound) :
    Fits s (Slot.clearAll slots) := by
  induction h with
  | intro length_eq _ ih =>
    refine .intro (by rw [clearAll_eq_map, List.length_map, length_eq]) fun p hp t ht => ?_
    rw [inner_clearAll]
    exact ih p hp t ht (hs.nested hp ht)

/-! ### Changes that keep storages fitting -/

/-- Whether the change succeeds or fails, what it leaves of a storage that fits does fit. -/
def Keeps (s : Schema) (change : Change Unit) : Prop :=
  ∀ slots, Fits s slots → Fits s (Outcome.left change slots)

/-- **Loads and writes keep storages fitting**, since what they are made of does. -/
theorem compositional_keeps : Compositional Keeps where
  pure _ _ h := h
  throw _ _ _ h := h
  bind {s c d} hc hd slots h := by
    rw [Outcome.left_bind]
    cases Outcome.answer c slots with
    | ok u => exact hd _ (hc slots h)
    | error e => exact hc slots h
  store hs hp hk v _ h := h.set_leaf hs hp hk v
  within hs hp ht hc slots h := by
    rw [left_within]
    exact h.set_opened hs hp ht (hc _ (h.nested hp ht))
  clear _ hs _ h := h.clearAll hs

end Storage

namespace Model

/-! ### What is tried -/

/-- A value is loaded as a payload, unless it is none. -/
theorem loadState_cases (v : Value) :
    (∃ e, ∀ m, loadState v m = .error e m) ∨ ∃ p, loadState v = setState p := by
  rw [loadState]
  cases Payload.ofValue v with
  | ok p => exact .inr ⟨p, rfl⟩
  | error e => exact .inl ⟨e, fun _ => rfl⟩

theorem load_eq {w : Workspace} {m : Model} {t : Target} {payload : List UInt8} {call : Settings}
    {raw : Value} (h : m.rawOf w t payload call = .ok raw) (slots : List Slot) :
    load w t payload call { m with slots := slots } = loadState raw { m with slots := slots } := by
  have hraw : rawOf w { m with slots := slots } t payload call = .ok raw := h
  rw [load, hraw]

/-- **Whatever is tried either fails at once or is made of single changes**, and what is stored
makes no difference to which it is. -/
theorem Attempt.run_cases (a : Attempt) (m : Model) :
    (∃ e, ∀ slots, a.run { m with slots := slots } = .error e { m with slots := slots }) ∨
      ∃ change : Schema → Storage.Change Unit,
        (∀ {P : Schema → Storage.Change Unit → Prop}, Storage.Compositional P →
          ∀ s : Schema, s.Sound → P s (change s)) ∧
          ∀ slots, a.run { m with slots := slots } = changing change { m with slots := slots } := by
  cases a with
  | set name v => exact .inr ⟨_, fun hP _ hs => hP.set hs name (.set v), fun _ => rfl⟩
  | clearField name => exact .inr ⟨_, fun hP _ hs => hP.set hs name .clear, fun _ => rfl⟩
  | writeAt names what => exact .inr ⟨_, fun hP _ hs => hP.setAt hs names what, fun _ => rfl⟩
  | bind pairs => exact .inr ⟨_, fun hP _ hs => hP.loadPayload hs (.mapping pairs), fun _ => rfl⟩
  | setState p => exact .inr ⟨_, fun hP _ hs => hP.loadPayload hs p, fun _ => rfl⟩
  | loadState v =>
    rcases loadState_cases v with ⟨e, he⟩ | ⟨p, hp⟩
    · exact .inl ⟨e, fun _ => he _⟩
    · exact .inr ⟨_, fun hP _ hs => hP.loadPayload hs p, fun _ => congrFun hp _⟩
  | load w t payload call =>
    cases hr : m.rawOf w t payload call with
    | error e =>
      refine .inl ⟨e, fun slots => ?_⟩
      have hraw : rawOf w { m with slots := slots } t payload call = .error e := hr
      rw [run, Model.load, hraw]
    | ok raw =>
      rcases loadState_cases raw with ⟨e, he⟩ | ⟨p, hp⟩
      · exact .inl ⟨e, fun slots => (load_eq hr slots).trans (he _)⟩
      · exact .inr ⟨_, fun hP _ hs => hP.loadPayload hs p,
          fun slots => (load_eq hr slots).trans (congrFun hp _)⟩

/-! ### Histories -/

/-- One update of an instance, or of a nested one that it holds. It may fail; then it counts what
the update left. -/
inductive Step : Model → Model → Prop
  /-- Something is tried. -/
  | attempt (m : Model) (a : Attempt) : Step m (Outcome.left a.run m)
  /-- Everything is cleared. -/
  | clear (m : Model) : Step m m.clear
  /-- A nested instance is updated. -/
  | inside {m n : Model} {p : Primary (Component Schema)} {t : Schema}
      (hp : p ∈ m.schema.primaries) (ht : p.target.schema? = some t)
      (h : Step (ofSlots t (Storage.inner t m.slots p.slot)) n) :
      Step m { m with slots := m.slots.set p.slot (.opened n.slots) }

/-- The instance was made with something of its own and then updated. -/
def Reachable (m : Model) : Prop :=
  ∃ s o m₀, withOptions s o = .ok m₀ ∧ Relation.ReflTransGen Step m₀ m

/-! ### What lasts -/

/-- The instances differ at most in their storages, and the second one's fits if the first one's
does. -/
def Sustains (m n : Model) : Prop :=
  ∃ slots, n = { m with slots := slots } ∧
    (m.schema.Sound → Storage.Fits m.schema m.slots → Storage.Fits m.schema slots)

theorem Sustains.refl (m : Model) : m.Sustains m := ⟨m.slots, rfl, fun _ h => h⟩

theorem Sustains.trans {m n k : Model} (h : m.Sustains n) (h' : n.Sustains k) : m.Sustains k := by
  obtain ⟨mid, rfl, hmid⟩ := h
  obtain ⟨slots, rfl, hslots⟩ := h'
  exact ⟨slots, rfl, fun hs h => hslots hs (hmid hs h)⟩

theorem sustains_changing (change : Schema → Storage.Change Unit) {m : Model}
    (h : m.schema.Sound → Storage.Keeps m.schema (change m.schema)) :
    m.Sustains (Outcome.left (changing change) m) :=
  ⟨_, left_changing change m, fun hs => h hs m.slots⟩

/-- Whatever is tried changes the storage only, and keeps it fitting. -/
theorem sustains_run (a : Attempt) (m : Model) : m.Sustains (Outcome.left a.run m) := by
  rcases a.run_cases m with ⟨e, h⟩ | ⟨change, hchange, h⟩
  · have hrun : a.run m = .error e m := h m.slots
    rw [Outcome.left, hrun]
    exact .refl m
  · have hrun : a.run m = changing change m := h m.slots
    have hkeeps : m.Sustains (Outcome.left (changing change) m) :=
      sustains_changing change (hchange Storage.compositional_keeps m.schema)
    rwa [Outcome.left, hrun]

/-- **A step changes the storage only, and keeps it fitting**, at whatever depth it is made. -/
theorem Step.sustains {m n : Model} (h : Step m n) : m.Sustains n := by
  induction h with
  | attempt m a => exact sustains_run a m
  | clear m => exact ⟨_, rfl, fun hs h => h.clearAll hs⟩
  | @inside m n p t hp ht h ih =>
    -- The nested instance fits in its place, and the induction hypothesis keeps it so.
    obtain ⟨slots, rfl, hfits⟩ := ih
    exact ⟨_, rfl, fun hs h =>
      h.set_opened hs hp ht (hfits (hs.nested hp ht) (h.nested hp ht))⟩

theorem sustains_of_history {m n : Model} (h : Relation.ReflTransGen Step m n) :
    m.Sustains n := by
  induction h with
  | refl => exact .refl m
  | tail _ hstep ih => exact ih.trans hstep.sustains

theorem sustains_setAll {pairs : List (String × Value)} {m n : Model}
    (h : setAll pairs m = .ok () n) : m.Sustains n := by
  induction pairs generalizing m with
  | nil =>
    cases h
    exact .refl _
  | cons e pairs ih =>
    rw [setAll, Outcome.bind_apply] at h
    have hset := sustains_run (.set e.1 e.2) m
    rw [Attempt.run, Outcome.left] at hset
    cases hr : set e.1 e.2 m with
    | error e' mid =>
      rw [hr] at h
      cases h
    | ok u mid =>
      rw [hr] at h hset
      exact hset.trans (ih h)

/-! ### Instances that were made -/

/-- An instance with something of its own, before fields are given values. -/
def blank (s : Schema) (o : Options) : Model :=
  { new s with
    name := o.name.getD s.name
    defaults := o.defaults
    settings := .ofList (o.settings.toList.filter fun e => !s.binds e.1) }

theorem Reachable.sustains {m : Model} (h : m.Reachable) :
    ∃ s o, (blank s o).Sustains m := by
  obtain ⟨s, o, m₀, hmade, hhistory⟩ := h
  refine ⟨s, o, .trans ?_ (sustains_of_history hhistory)⟩
  rw [withOptions] at hmade
  dsimp only at hmade
  split at hmade
  · next n hset =>
    have hset : setAll _ (blank s o) = .ok () n := hset
    cases hmade
    exact sustains_setAll hset
  · cases hmade

/-- **Whatever an instance went through, its storage fits its schema.** -/
theorem Reachable.fits {m : Model} (h : m.Reachable) (hs : m.schema.Sound) :
    Storage.Fits m.schema m.slots := by
  obtain ⟨s, o, slots, rfl, hfits⟩ := h.sustains
  exact hfits hs (Storage.fits_fresh hs)

/-- **Another instance can be made with what an instance has of its own.** None of its settings is
taken for the value of a field. -/
theorem Reachable.withOptions_eq {m : Model} (h : m.Reachable) :
    withOptions m.schema ⟨some m.name, m.defaults, m.settings⟩ =
      .ok { m with slots := m.schema.fresh } := by
  obtain ⟨s, o, slots, rfl, -⟩ := h.sustains
  -- Settings under the names of fields were sorted out when the instance was made.
  have hkept : ∀ e ∈ (blank s o).settings.toList, s.binds e.1 = false := by
    intro e he
    have hmem := Entries.mem_of_mem_ofList he
    simpa using (List.mem_filter.1 hmem).2
  have hinitial : (blank s o).settings.toList.filter (fun e => s.binds e.1) = [] :=
    List.filter_eq_nil_iff.2 fun e he => by simp [hkept e he]
  have hsettings : (blank s o).settings.toList.filter (fun e => !s.binds e.1) =
      (blank s o).settings.toList :=
    List.filter_eq_self.2 fun e he => by simp [hkept e he]
  change withOptions s ⟨some (blank s o).name, (blank s o).defaults, (blank s o).settings⟩ = _
  rw [withOptions]
  dsimp only
  rw [hinitial, hsettings, Dict.ofList_toList]
  rfl

end Model

end VersionedModel
