import VersionedModel.Proofs.Model.Cells
import VersionedModel.Proofs.Model.Simulation

/-!
# Cells that fit

An instance fits if it has one cell for each primary, nested where the primary nests a schema, and
if the nested instances that were made are instances of this schema, have nothing of their own, and
fit themselves (`Instance.Fits`). Then a primary finds its cell, which is of its own kind
(`Instance.Fits.exists_leaf`, `Instance.Fits.exists_nested`), and its nested instance can be made.

A change of an instance is in step with a change of its storage (`Instance.Follows`) if on all that
fits it comes to the same end, an ordinary failure at most, and leaves what fits. Loads and writes
are in step (`Instance.follows_load`, `Instance.follows_writeAt`).
-/

namespace VersionedModel

/-- Whether the cell is for a nested instance. -/
def Cell.isNested : Cell → Bool
  | .leaf _ => false
  | .nested _ => true

namespace Instance

/-- An instance of a schema that has nothing of its own. -/
structure Plain (t : Schema) (n : Instance) : Prop where
  /-- The schema. -/
  schema_eq : n.schema = t
  /-- The name. -/
  name_eq : n.name = t.name
  /-- The defaults. -/
  defaults_eq : n.defaults = ∅
  /-- The settings. -/
  settings_eq : n.settings = ∅

/-- There is one cell for each primary, and it is nested exactly if the primary nests a schema;
nested instances are instances of that schema without anything of their own, and fit, too. -/
inductive Fits : Instance → Prop
  | intro {i : Instance} (length_eq : i.cells.length = Bindings.slotCount i.schema.bindings)
      (nested_iff : ∀ (j : Nat) (p : Primary (Component Schema)) (c : Cell),
        i.schema.primaries[j]? = some p → i.cells[j]? = some c →
          (c.isNested = true ↔ p.target.isModel = true))
      (plain : ∀ (j : Nat) (p : Primary (Component Schema)) (n : Instance),
        i.schema.primaries[j]? = some p → i.cells[j]? = some (.nested (some n)) →
          ∃ t, p.target.schema? = some t ∧ Plain t n)
      (inner : ∀ (j : Nat) (n : Instance), i.cells[j]? = some (.nested (some n)) → Fits n) :
      Fits i

/-! ### Storages -/

theorem slots_eq (i : Instance) : i.slots = i.cells.map Cell.slot := by
  have hmap : ∀ cells, Cell.slots cells = cells.map Cell.slot := by
    intro cells
    induction cells with
    | nil => rfl
    | cons c cells ih => rw [Cell.slots, List.map_cons, ih]
  cases i
  rw [Instance.slots, hmap]
  rfl

theorem model_setCell (i : Instance) (slot : Nat) (c : Cell) :
    (i.setCell slot c).model = { i.model with slots := i.slots.set slot c.slot } := by
  rw [Instance.model, slots_eq]
  simp only [Instance.model, setCell, cells, List.map_set, slots_eq]
  rfl

theorem Plain.model_eq {t : Schema} {n : Instance} (h : Plain t n) :
    n.model = Model.ofSlots t n.slots := by
  rw [Instance.model, Model.ofSlots, h.schema_eq, h.name_eq, h.defaults_eq, h.settings_eq]

theorem plain_of_model_eq {t : Schema} {n : Instance} {slots : List Slot}
    (h : n.model = Model.ofSlots t slots) : Plain t n :=
  ⟨congrArg Model.schema h, congrArg Model.name h, congrArg Model.defaults h,
    congrArg Model.settings h⟩

theorem plain_new (t : Schema) : Plain t (new t) := ⟨rfl, rfl, rfl, rfl⟩

theorem slot_newCell (p : Primary (Component Schema)) : p.newCell.slot = p.fresh := by
  rw [Primary.newCell, Primary.fresh]
  split <;> rfl

theorem slots_new (t : Schema) : (new t).slots = t.fresh := by
  rw [slots_eq, new, cells, List.map_map]
  exact List.map_congr_left fun p _ => slot_newCell p

theorem isNested_newCell (p : Primary (Component Schema)) :
    p.newCell.isNested = p.target.isModel := by
  rw [Primary.newCell]
  cases p.target.isModel <;> rfl

theorem newCell_ne (p : Primary (Component Schema)) (n : Instance) :
    p.newCell ≠ .nested (some n) := by
  rw [Primary.newCell]
  split <;> simp

theorem fits_new (t : Schema) : (new t).Fits := by
  have hcell : ∀ (j : Nat) (c : Cell), (new t).cells[j]? = some c →
      ∃ p, t.primaries[j]? = some p ∧ p.newCell = c := by
    intro j c hc
    rw [new, cells, List.getElem?_map] at hc
    exact Option.map_eq_some_iff.1 hc
  refine .intro (List.length_map _) (fun j p c hp hc => ?_) (fun j p n _ hn => ?_) fun j n hn => ?_
  · obtain ⟨q, hq, rfl⟩ := hcell j c hc
    obtain rfl := Option.some.inj (hp.symm.trans hq)
    rw [isNested_newCell]
  · obtain ⟨q, -, hq⟩ := hcell j _ hn
    exact absurd hq (newCell_ne q n)
  · obtain ⟨q, -, hq⟩ := hcell j _ hn
    exact absurd hq (newCell_ne q n)

/-- Nothing but the schema and the cells counts. -/
theorem Fits.of_cells_eq {i j : Instance} (h : i.Fits) (hschema : j.schema = i.schema)
    (hcells : j.cells = i.cells) : j.Fits := by
  cases h with
  | intro length_eq nested_iff plain inner =>
    rw [← hschema] at length_eq nested_iff plain
    rw [← hcells] at length_eq nested_iff plain inner
    exact .intro length_eq nested_iff plain inner

/-! ### Cells that are found -/

section Cells

variable {i : Instance} {p : Primary (Component Schema)}

theorem Fits.length_eq (h : i.Fits) : i.cells.length = i.schema.primaries.length := by
  cases h
  assumption

/-- The slot of a primary is there, and its cell is of the primary's kind. -/
theorem Fits.exists_cell (h : i.Fits) (hs : i.schema.Sound) (hp : p ∈ i.schema.primaries) :
    ∃ c, i.cells[p.slot]? = some c ∧ (c.isNested = true ↔ p.target.isModel = true) := by
  have hlt : p.slot < i.cells.length := by
    rw [h.length_eq]
    exact hs.here.slot_lt hp
  cases h with
  | intro _ nested_iff =>
    exact ⟨_, List.getElem?_eq_getElem hlt,
      nested_iff p.slot p _ (hs.here.getElem?_slot hp) (List.getElem?_eq_getElem hlt)⟩

theorem Fits.exists_leaf (h : i.Fits) (hs : i.schema.Sound) (hp : p ∈ i.schema.primaries)
    (hk : p.target.schema? = none) : ∃ v, i.cells[p.slot]? = some (.leaf v) := by
  obtain ⟨c, hc, hiff⟩ := h.exists_cell hs hp
  rw [Component.isModel, hk] at hiff
  cases c with
  | leaf v => exact ⟨v, hc⟩
  | nested made => simp [Cell.isNested] at hiff

theorem Fits.exists_nested (h : i.Fits) (hs : i.schema.Sound) (hp : p ∈ i.schema.primaries)
    {t : Schema} (ht : p.target.schema? = some t) :
    ∃ made, i.cells[p.slot]? = some (.nested made) := by
  obtain ⟨c, hc, hiff⟩ := h.exists_cell hs hp
  rw [Component.isModel, ht] at hiff
  cases c with
  | leaf v => simp [Cell.isNested] at hiff
  | nested made => exact ⟨made, hc⟩

/-- A nested instance that was made is one of the nested schema. -/
theorem Fits.plain_and_fits (h : i.Fits) (hs : i.schema.Sound) (hp : p ∈ i.schema.primaries)
    {t : Schema} (ht : p.target.schema? = some t) {n : Instance}
    (hc : i.cells[p.slot]? = some (.nested (some n))) : Plain t n ∧ n.Fits := by
  cases h with
  | intro _ _ plain inner =>
    obtain ⟨u, hu, hn⟩ := plain p.slot p n (hs.here.getElem?_slot hp) hc
    obtain rfl := Option.some.inj (ht.symm.trans hu)
    exact ⟨hn, inner p.slot n hc⟩

/-- **A nested instance can always be entered**, and it is what the storage says of it. -/
theorem Fits.exists_enter (h : i.Fits) (hs : i.schema.Sound) (hp : p ∈ i.schema.primaries)
    {t : Schema} (ht : p.target.schema? = some t) {made : Option Instance}
    (hc : i.cells[p.slot]? = some (.nested made)) :
    ∃ n, p.enter made = .ok n ∧ Plain t n ∧ n.Fits ∧
      n.slots = Storage.inner t i.slots p.slot := by
  rw [Storage.inner, slots_eq, List.getElem?_map, hc, Option.map_some]
  cases made with
  | none =>
    have hmade : p.enter none = .ok (new t) := by
      rw [Primary.enter, Primary.instantiate, ht]
      rfl
    exact ⟨new t, hmade, plain_new t, fits_new t, slots_new t⟩
  | some n =>
    obtain ⟨hplain, hn⟩ := h.plain_and_fits hs hp ht hc
    exact ⟨n, rfl, hplain, hn, rfl⟩

/-- The storage of an instance that fits does fit its schema. -/
theorem Fits.storage (h : i.Fits) (hs : i.schema.Sound) : Storage.Fits i.schema i.slots := by
  induction h with
  | @intro i length_eq nested_iff plain inner ih =>
    have hi : i.Fits := .intro length_eq nested_iff plain inner
    have hlength : i.slots.length = i.schema.primaries.length := by
      rw [slots_eq, List.length_map, hi.length_eq]
    refine .intro hlength fun p hp t ht => ?_
    obtain ⟨made, hc⟩ := hi.exists_nested hs hp ht
    rw [Storage.inner, slots_eq, List.getElem?_map, hc, Option.map_some]
    cases made with
    | none => exact Storage.fits_fresh (hs.nested hp ht)
    | some n =>
      have hn := (hi.plain_and_fits hs hp ht hc).1
      have hinner := ih p.slot n hc (hn.schema_eq ▸ hs.nested hp ht)
      rwa [hn.schema_eq] at hinner

/-- A cell that suits its primary may be put in its place. -/
theorem Fits.setCell (h : i.Fits) {j : Nat} (hp : i.schema.primaries[j]? = some p) {c : Cell}
    (hc : c.isNested = true ↔ p.target.isModel = true)
    (hn : ∀ n, c = .nested (some n) → (∃ t, p.target.schema? = some t ∧ Plain t n) ∧ n.Fits) :
    (i.setCell j c).Fits := by
  have hcell : ∀ (k : Nat) (d : Cell), (i.setCell j c).cells[k]? = some d →
      j = k ∧ d = c ∨ j ≠ k ∧ i.cells[k]? = some d := by
    intro k d hd
    rw [Instance.setCell, cells] at hd
    by_cases hk : j = k
    · subst hk
      rw [List.getElem?_set_self', Option.map_eq_map, Option.map_eq_some_iff] at hd
      obtain ⟨_, -, rfl⟩ := hd
      exact .inl ⟨rfl, rfl⟩
    · rw [List.getElem?_set_ne hk] at hd
      exact .inr ⟨hk, hd⟩
  cases h with
  | intro length_eq nested_iff plain inner =>
    refine .intro ((List.length_set ..).trans length_eq) (fun k q d hq hd => ?_)
      (fun k q n hq hd => ?_) fun k n hd => ?_
    · rcases hcell k d hd with ⟨rfl, rfl⟩ | ⟨-, hd⟩
      · obtain rfl := Option.some.inj (hp.symm.trans hq)
        exact hc
      · exact nested_iff k q d hq hd
    · rcases hcell k _ hd with ⟨rfl, hnew⟩ | ⟨-, hd⟩
      · obtain rfl := Option.some.inj (hp.symm.trans hq)
        exact (hn n hnew.symm).1
      · exact plain k q n hq hd
    · rcases hcell k _ hd with ⟨rfl, hnew⟩ | ⟨-, hd⟩
      · exact (hn n hnew.symm).2
      · exact inner k n hd

theorem Fits.set_leaf (h : i.Fits) (hs : i.schema.Sound) (hp : p ∈ i.schema.primaries)
    (hk : p.target.schema? = none) (v : Option Value) : (i.setCell p.slot (.leaf v)).Fits :=
  h.setCell (hs.here.getElem?_slot hp) (by simp [Cell.isNested, Component.isModel, hk])
    fun _ => nofun

theorem Fits.set_nested (h : i.Fits) (hs : i.schema.Sound) (hp : p ∈ i.schema.primaries)
    {t : Schema} (ht : p.target.schema? = some t) {n : Instance} (hplain : Plain t n)
    (hn : n.Fits) : (i.setCell p.slot (.nested (some n))).Fits :=
  h.setCell (hs.here.getElem?_slot hp) (by simp [Cell.isNested, Component.isModel, ht])
    fun _ he => by
      cases he
      exact ⟨⟨t, ht, hplain⟩, hn⟩

end Cells

end Instance

/-! ### Clearing -/

mutual

/-- What is stored in a cleared instance is cleared. -/
theorem Instance.slots_clear (i : Instance) : i.clear.slots = Slot.clearAll i.slots := by
  match i with
  | .mk _ _ _ _ cells => exact Cell.slots_clearAll cells

theorem Cell.slot_clear (c : Cell) : c.clear.slot = c.slot.clear := by
  match c with
  | .leaf _ | .nested none => rfl
  | .nested (some n) => exact congrArg Slot.opened n.slots_clear

theorem Cell.slots_clearAll (cells : List Cell) :
    Cell.slots (Cell.clearAll cells) = Slot.clearAll (Cell.slots cells) := by
  match cells with
  | [] => rfl
  | c :: cells => exact congrArg₂ List.cons c.slot_clear (Cell.slots_clearAll cells)

end

namespace Instance

theorem model_clear (i : Instance) : i.clear.model = i.model.clear := by
  rw [Instance.model, slots_clear]
  cases i
  rfl

theorem cells_clear (i : Instance) : i.clear.cells = i.cells.map Cell.clear := by
  have hmap : ∀ cells, Cell.clearAll cells = cells.map Cell.clear := by
    intro cells
    induction cells with
    | nil => rfl
    | cons c cells ih => rw [Cell.clearAll, List.map_cons, ih]
  cases i
  exact hmap _

theorem schema_clear (i : Instance) : i.clear.schema = i.schema := by
  cases i
  rfl

theorem Plain.clear {t : Schema} {n : Instance} (h : Plain t n) : Plain t n.clear := by
  obtain ⟨hschema, hname, hdefaults, hsettings⟩ := h
  cases n
  exact ⟨hschema, hname, hdefaults, hsettings⟩

theorem isNested_clear (c : Cell) : c.clear.isNested = c.isNested := by
  rcases c with _ | _ | _ <;> rfl

theorem exists_of_clear_eq {c : Cell} {n : Instance} (h : c.clear = .nested (some n)) :
    ∃ m, c = .nested (some m) ∧ n = m.clear := by
  rcases c with _ | _ | m <;> cases h
  exact ⟨m, rfl, rfl⟩

/-- Nested instances are cleared in their places. -/
theorem Fits.clear {i : Instance} (h : i.Fits) : i.clear.Fits := by
  induction h with
  | @intro i length_eq nested_iff plain _ ih =>
    have hcell : ∀ (j : Nat) (c : Cell), i.clear.cells[j]? = some c →
        ∃ d, i.cells[j]? = some d ∧ d.clear = c := by
      intro j c hc
      rw [cells_clear, List.getElem?_map] at hc
      exact Option.map_eq_some_iff.1 hc
    refine .intro ?_ (fun j p c hp hc => ?_) (fun j p n hp hn => ?_) fun j n hn => ?_
    · rw [cells_clear, List.length_map, length_eq, schema_clear]
    · rw [schema_clear] at hp
      obtain ⟨d, hd, rfl⟩ := hcell j c hc
      rw [isNested_clear]
      exact nested_iff j p d hp hd
    · rw [schema_clear] at hp
      obtain ⟨d, hd, he⟩ := hcell j _ hn
      obtain ⟨m, rfl, rfl⟩ := exists_of_clear_eq he
      obtain ⟨t, ht, hm⟩ := plain j p m hp hd
      exact ⟨t, ht, hm.clear⟩
    · obtain ⟨d, hd, he⟩ := hcell j _ hn
      obtain ⟨m, rfl, rfl⟩ := exists_of_clear_eq he
      exact ih j m hd

/-! ### Changes in step -/

/-- What an instance became while its storage became `slots`: it fits and has everything of its own
as before. -/
structure Became (i i' : Instance) (slots : List Slot) : Prop where
  /-- It fits. -/
  fits : i'.Fits
  /-- It has its own, and the storage. -/
  model_eq : i'.model = { i.model with slots := slots }

/-- What came of a change of an instance and of a change of its storage: both are done, or both
fail alike, and the one became what the other became. -/
inductive InStep (i : Instance) :
    EStateM.Result Stop Instance Unit → EStateM.Result Error (List Slot) Unit → Prop
  | ok {i' : Instance} {slots : List Slot} (h : Became i i' slots) :
      InStep i (.ok () i') (.ok () slots)
  | failed {e : Error} {i' : Instance} {slots : List Slot} (h : Became i i' slots) :
      InStep i (.error (.failed e) i') (.error e slots)

/-- On instances of the schema that fit, the first change is in step with the second one. -/
def Follows (s : Schema) (c : Change Unit) (d : Storage.Change Unit) : Prop :=
  ∀ i : Instance, i.Fits → i.schema = s → InStep i (c i) (d i.slots)

theorem Became.refl {i : Instance} (h : i.Fits) : Became i i i.slots := ⟨h, rfl⟩

theorem Became.schema_eq {i i' : Instance} {slots : List Slot} (h : Became i i' slots) :
    i'.schema = i.schema :=
  congrArg Model.schema h.model_eq

theorem Became.slots_eq {i i' : Instance} {slots : List Slot} (h : Became i i' slots) :
    i'.slots = slots :=
  congrArg Model.slots h.model_eq

theorem Became.trans {i i' i'' : Instance} {slots slots' : List Slot} (h : Became i i' slots)
    (h' : Became i' i'' slots') : Became i i'' slots' :=
  ⟨h'.fits, by rw [h'.model_eq, h.model_eq]⟩

section Follows

variable {s : Schema}

theorem follows_pure (s : Schema) : Follows s (pure ()) (pure ()) := fun _ h _ => .ok (.refl h)

theorem follows_throw (s : Schema) (e : Error) : Follows s (throw (.failed e)) (throw e) :=
  fun _ h _ => .failed (.refl h)

theorem Follows.bind {c c' : Change Unit} {d d' : Storage.Change Unit} (h : Follows s c d)
    (h' : Follows s c' d') : Follows s (c >>= fun _ => c') (d >>= fun _ => d') := by
  intro i hi hschema
  rw [Outcome.bind_apply, Outcome.bind_apply]
  have hfirst := h i hi hschema
  generalize c i = r at hfirst
  generalize d i.slots = q at hfirst
  cases hfirst with
  | failed hb => exact .failed hb
  | @ok i' slots hb =>
    have hsecond := h' i' hb.fits (hb.schema_eq.trans hschema)
    rw [hb.slots_eq] at hsecond
    dsimp only
    generalize c' i' = r at hsecond
    generalize d' slots = q at hsecond
    cases hsecond with
    | ok hb' => exact .ok (hb.trans hb')
    | failed hb' => exact .failed (hb.trans hb')

theorem Follows.guarded {c : Change Unit} {d : Storage.Change Unit} (h : Follows s c d)
    (checked : Except Error Unit) : Follows s (guarded checked c) (Storage.guarded checked d) := by
  cases checked with
  | ok u => exact h
  | error e => exact follows_throw s e

/-- A change that looks at the schema first. -/
theorem follows_get {c : Schema → Change Unit} {d : Storage.Change Unit} (h : Follows s (c s) d) :
    Follows s (do c (← get).schema) d := by
  intro i hi hschema
  rw [Outcome.bind_apply]
  change InStep i (c i.schema i) _
  rw [hschema]
  exact h i hi hschema

/-- **What is done in a nested instance is in step** if it is in step there. -/
theorem InStep.within {i : Instance} (hi : i.Fits) (hs : i.schema.Sound)
    {p : Primary (Component Schema)} (hp : p ∈ i.schema.primaries) {t : Schema}
    (ht : p.target.schema? = some t) {made : Option Instance}
    (hc : i.cells[p.slot]? = some (.nested made)) {c : Change Unit} {d : Storage.Change Unit}
    (h : Follows t c d) : InStep i (within p made c i) (Storage.within t p.slot d i.slots) := by
  obtain ⟨n, hn, hplain, hfits, hslots⟩ := hi.exists_enter hs hp ht hc
  rw [Instance.within, hn, Storage.within, ← hslots]
  have hinner := h n hfits hplain.schema_eq
  -- Whatever the nested instance became, it stands in its cell as its storage stands in the slot.
  have hput : ∀ n' slots, Became n n' slots →
      Became i (i.setCell p.slot (.nested (some n'))) (i.slots.set p.slot (.opened slots)) := by
    intro n' slots hb
    have hmodel : n'.model = Model.ofSlots t slots := by
      rw [hb.model_eq, hplain.model_eq]
      rfl
    refine ⟨hi.set_nested hs hp ht (plain_of_model_eq hmodel) hb.fits, ?_⟩
    rw [model_setCell, Cell.slot, hb.slots_eq]
  dsimp only
  generalize c n = r at hinner
  generalize d n.slots = q at hinner
  cases hinner with
  | ok hb => exact .ok (hput _ _ hb)
  | failed hb => exact .failed (hput _ _ hb)

/-! ### Loads and writes -/

theorem lookup_apply {name : String} {i : Instance} {p : Primary (Component Schema)}
    (hp : i.schema.resolve? name = some p) : lookup name i = .ok p i := by
  rw [lookup, Storage.primary, hp]

theorem lookup_of_unbound {name : String} {i : Instance} (hp : i.schema.resolve? name = none) :
    lookup name i = .error (.failed (.unknownField name)) i := by
  rw [lookup, Storage.primary, hp]

theorem cellAt_apply {i : Instance} {slot : Nat} {c : Cell} (hc : i.cells[slot]? = some c) :
    cellAt slot i = .ok c i := by
  rw [cellAt, hc]

theorem atField_of_unbound {name : String} {i : Instance} (hp : i.schema.resolve? name = none)
    (leaf : Primary (Component Schema) → Change Unit) (nested : Change Unit) :
    atField name leaf nested i = .error (.failed (.unknownField name)) i := by
  rw [atField, Outcome.bind_apply, lookup_of_unbound hp]

section Bound

variable {name : String} {i : Instance} {p : Primary (Component Schema)}
  (hp : i.schema.resolve? name = some p)
include hp

theorem atField_of_leaf {v : Option Value} (hc : i.cells[p.slot]? = some (.leaf v))
    (leaf : Primary (Component Schema) → Change Unit) (nested : Change Unit) :
    atField name leaf nested i = leaf p i := by
  rw [atField, Outcome.bind_apply, lookup_apply hp]
  dsimp only
  rw [Outcome.bind_apply, cellAt_apply hc]

theorem atField_of_nested {made : Option Instance} (hc : i.cells[p.slot]? = some (.nested made))
    (leaf : Primary (Component Schema) → Change Unit) (nested : Change Unit) :
    atField name leaf nested i = within p made nested i := by
  rw [atField, Outcome.bind_apply, lookup_apply hp]
  dsimp only
  rw [Outcome.bind_apply, cellAt_apply hc]

end Bound

/-- **A field that is gone by is what its primary says**, if it has one: a leaf, or nested. -/
theorem Fits.atField_cases {i : Instance} (h : i.Fits) (hs : i.schema.Sound) (name : String)
    (leaf : Primary (Component Schema) → Change Unit) (nested : Change Unit) :
    (i.schema.resolve? name = none ∧
        atField name leaf nested i = .error (.failed (.unknownField name)) i) ∨
      (∃ p ∈ i.schema.primaries, i.schema.resolve? name = some p ∧ p.target.schema? = none ∧
        atField name leaf nested i = leaf p i) ∨
      ∃ p ∈ i.schema.primaries, ∃ t made, i.schema.resolve? name = some p ∧
        p.target.schema? = some t ∧ i.cells[p.slot]? = some (.nested made) ∧
        atField name leaf nested i = within p made nested i := by
  cases hp : i.schema.resolve? name with
  | none => exact .inl ⟨rfl, atField_of_unbound hp leaf nested⟩
  | some p =>
    have hmem := Schema.mem_of_resolve? hp
    cases hk : p.target.schema? with
    | none =>
      obtain ⟨v, hc⟩ := h.exists_leaf hs hmem hk
      exact .inr (.inl ⟨p, hmem, rfl, hk, atField_of_leaf hp hc leaf nested⟩)
    | some t =>
      obtain ⟨made, hc⟩ := h.exists_nested hs hmem hk
      exact .inr (.inr ⟨p, hmem, t, made, rfl, hk, hc, atField_of_nested hp hc leaf nested⟩)

theorem follows_change (hs : s.Sound) (name : String) (stored : Option Value)
    {nested : Change Unit} {nestedStored : Schema → Storage.Change Unit}
    (h : ∀ t : Schema, t.Sound → Follows t nested (nestedStored t)) :
    Follows s (change name stored nested) (Storage.change s name stored nestedStored) := by
  intro i hi hschema
  subst hschema
  rw [change]
  rcases hi.atField_cases hs name (fun p => modify fun i => i.setCell p.slot (.leaf stored)) nested
    with ⟨hp, hrun⟩ | ⟨p, hmem, hp, hk, hrun⟩ | ⟨p, hmem, t, made, hp, hk, hc, hrun⟩
  · rw [hrun, Storage.change_of_unbound hp]
    exact .failed (.refl hi)
  · rw [hrun, Storage.change_of_leaf hp hk]
    exact .ok ⟨hi.set_leaf hs hmem hk stored, model_setCell i p.slot _⟩
  · rw [hrun, Storage.change_of_model hp hk]
    exact .within hi hs hmem hk hc (h t (hs.nested hmem hk))

mutual

/-- **Loads are in step.** -/
theorem follows_load {s : Schema} (hs : s.Sound) (v : Value) :
    Follows s (load v) (Storage.load s v) := by
  match v with
  | .array items =>
    exact follows_get (c := fun s =>
        guarded (Storage.checkItems s (Storage.names s) items) (putItems (Storage.names s) items))
      ((follows_putItems hs (Storage.names s) items).guarded _)
  | .map entries =>
    exact follows_get (c := fun s =>
        guarded (Storage.checkEntries s entries) (putEntries s entries))
      ((follows_putEntries hs entries).guarded _)
  | .null | .bool _ | .integer _ | .float _ | .string _ | .bytes _ => exact follows_throw s _

theorem follows_putItems {s : Schema} (hs : s.Sound) (names : List String) (items : List Value) :
    Follows s (putItems names items) (Storage.putItems s names items) := by
  match names, items with
  | [], _ | _ :: _, [] =>
    rw [putItems, Storage.putItems]
    · exact follows_pure s
    · simp
    · simp
  | name :: names, v :: items =>
    exact (follows_change hs name (some v) fun t ht => follows_load ht v).bind
      (follows_putItems hs names items)

theorem follows_putEntries {s : Schema} (hs : s.Sound) (entries : List (String × Value)) :
    Follows s (putEntries s entries) (Storage.putEntries s entries) := by
  match entries with
  | [] => exact follows_pure s
  | (name, v) :: entries =>
    rw [putEntries, Storage.putEntries]
    split
    · exact (follows_change hs name (some v) fun t ht => follows_load ht v).bind
        (follows_putEntries hs entries)
    · exact follows_putEntries hs entries

end

theorem follows_setState (hs : s.Sound) (p : Payload) :
    Follows s (setState p) (Storage.loadPayload s p) := by
  cases p with
  | sequence items => exact Storage.load_array s items ▸ follows_load hs (.array items)
  | mapping entries => exact Storage.load_map s entries ▸ follows_load hs (.map entries)

theorem follows_clear (s : Schema) : Follows s (modify clear) (modify Slot.clearAll) :=
  fun i hi _ => .ok ⟨hi.clear, model_clear i⟩

theorem follows_write (hs : s.Sound) (name : String) (what : Write) :
    Follows s (write name what) (Storage.set s name what) := by
  cases what with
  | set v => exact follows_change hs name (some v) fun t ht => follows_load ht v
  | clear => exact follows_change hs name none fun t _ => follows_clear t

/-- **Writes are in step**, at the end of whatever chain of names. -/
theorem follows_writeAt (hs : s.Sound) (what : Write) (names : List String) :
    Follows s (writeAt what names) (Storage.setAt s what names) := by
  induction names generalizing s with
  | nil => exact follows_throw s _
  | cons name rest ih =>
    by_cases hrest : rest = []
    · subst hrest
      exact follows_write hs name what
    intro i hi hschema
    subst hschema
    rw [writeAt]
    · rcases hi.atField_cases hs name (fun _ => throw (.failed (.notAModel name)))
        (writeAt what rest)
        with ⟨hp, hrun⟩ | ⟨p, -, hp, hk, hrun⟩ | ⟨p, hmem, t, made, hp, hk, hc, hrun⟩
      · rw [hrun, Storage.setAt_cons_of_unbound hp hrest]
        exact .failed (.refl hi)
      · rw [hrun, Storage.setAt_cons_of_leaf hp hk hrest]
        exact .failed (.refl hi)
      · rw [hrun, Storage.setAt_cons_of_model hp hk hrest]
        exact .within hi hs hmem hk hc (ih (hs.nested hmem hk))
    · exact hrest

end Follows

end Instance

end VersionedModel
