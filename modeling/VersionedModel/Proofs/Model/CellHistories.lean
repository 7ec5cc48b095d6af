import VersionedModel.Proofs.Model.FittingCells
import VersionedModel.Proofs.Model.Operations
import VersionedModel.Proofs.Model.Places

/-!
# What instances with cells go through

An instance with its cells is made and then used again and again, directly or through the nested
instances that it holds: it is read, which makes nested instances, updated and cleared. Meanwhile
the model does the same with slots, and does not count what is only read (`Use.operation`).

One use comes to an end, an ordinary failure at most, and leaves cells that fit, with a storage that
cannot be told from the model's (`Use.yields_run`); what is tried answers alike
(`Instance.answer_attempt`). So it is with any number of uses, and nothing but a failure ever stops
one (`Instance.fits_after`).
-/

namespace VersionedModel

/-- What is loaded as a payload may be loaded as it is. -/
theorem Model.loadState_eq_changing (v : Value) :
    loadState v = changing fun s => Storage.load s v := by
  cases v with
  | array items => simp only [Storage.load_array]; rfl
  | map entries => simp only [Storage.load_map]; rfl
  | _ => rfl

namespace Instance

/-! ### In step with a model -/

/-- What came of something that is done to an instance of the schema and to its model: both are
done, or both fail alike, and the one is still the model of the other, which fits. -/
inductive Matches (s : Schema) :
    EStateM.Result Stop Instance Unit → EStateM.Result Error Model Unit → Prop
  | ok {i : Instance} (hschema : i.schema = s) (hi : i.Fits) : Matches s (.ok () i) (.ok () i.model)
  | failed {e : Error} {i : Instance} (hschema : i.schema = s) (hi : i.Fits) :
      Matches s (.error (.failed e) i) (.error e i.model)

theorem Follows.matches {c : Change Unit} {i : Instance} (d : Schema → Storage.Change Unit)
    (h : Follows i.schema c (d i.schema)) (hi : i.Fits) :
    Matches i.schema (c i) (Model.changing d i.model) := by
  have hstep := h i hi rfl
  generalize hq : d i.schema i.slots = q at hstep
  have hmodel : d i.model.schema i.model.slots = q := hq
  rw [Model.changing, hmodel]
  generalize c i = r at hstep
  cases hstep with
  | ok hb =>
    dsimp only
    rw [← hb.model_eq]
    exact .ok hb.schema_eq hb.fits
  | failed hb =>
    dsimp only
    rw [← hb.model_eq]
    exact .failed hb.schema_eq hb.fits

theorem matches_load {i : Instance} (hi : i.Fits) (hs : i.schema.Sound) (v : Value) :
    Matches i.schema (load v i) (Model.loadState v i.model) := by
  rw [Model.loadState_eq_changing]
  exact (follows_load hs v).matches (fun s => Storage.load s v) hi

/-- **What is tried is in step with the model.** -/
theorem matches_attempt {i : Instance} (hi : i.Fits) (hs : i.schema.Sound) (a : Model.Attempt) :
    Matches i.schema (attempt a i) (a.run i.model) := by
  have hwrite : ∀ name what,
      Matches i.schema (write name what i) (Model.write name what i.model) := fun name what =>
    (follows_write hs name what).matches (fun s => Storage.set s name what) hi
  have hset : ∀ p, Matches i.schema (setState p i) (Model.setState p i.model) := fun p =>
    (follows_setState hs p).matches (fun s => Storage.loadPayload s p) hi
  cases a with
  | set name v => exact hwrite name (.set v)
  | clearField name => exact hwrite name .clear
  | writeAt names what =>
    exact (follows_writeAt hs what names).matches (fun s => Storage.setAt s what names) hi
  | bind pairs => exact hset (.mapping pairs)
  | setState p => exact hset p
  | loadState v => exact matches_load hi hs v
  | load w t payload call =>
    rw [attempt, Model.Attempt.run, Model.load]
    dsimp only
    cases i.model.rawOf w t payload call with
    | ok raw => exact matches_load hi hs raw
    | error e => exact .failed rfl hi

theorem matches_writeAll {i : Instance} (hi : i.Fits) (hs : i.schema.Sound)
    (pairs : List (String × Value)) :
    Matches i.schema (writeAll pairs i) (Model.setAll pairs i.model) := by
  induction pairs generalizing i with
  | nil => exact .ok rfl hi
  | cons e pairs ih =>
    have hfirst := matches_attempt hi hs (.set e.1 e.2)
    rw [attempt, Model.Attempt.run] at hfirst
    rw [writeAll, Model.setAll, Outcome.bind_apply, Outcome.bind_apply]
    generalize write e.1 (.set e.2) i = r at hfirst
    generalize Model.set e.1 e.2 i.model = q at hfirst
    cases hfirst with
    | failed hschema hi' => exact .failed hschema hi'
    | ok hschema hi' => exact hschema ▸ ih hi' (hschema ▸ hs)

theorem fits_blank (s : Schema) (o : Model.Options) : (blank s o).Fits :=
  (fits_new s).of_cells_eq rfl rfl

theorem model_blank (s : Schema) (o : Model.Options) : (blank s o).model = Model.blank s o := by
  rw [Model.blank, Model.new, ← slots_new]
  rfl

/-- With nothing of its own it is an instance that was never written. -/
theorem withOptions_none (s : Schema) : withOptions s .none = .ok (new s) := rfl

/-- **An instance is made if its model is**, and fits. -/
theorem withOptions_cases {s : Schema} (hs : s.Sound) (o : Model.Options) :
    (∃ e, withOptions s o = .error (.failed e) ∧ Model.withOptions s o = .error e) ∨
      ∃ i, withOptions s o = .ok i ∧ Model.withOptions s o = .ok i.model ∧ i.schema = s ∧
        i.Fits := by
  have hall := matches_writeAll (fits_blank s o) hs
    (o.settings.toList.filter fun e => s.binds e.1)
  rw [model_blank] at hall
  rw [withOptions, Model.withOptions]
  dsimp only
  generalize writeAll _ (blank s o) = r at hall
  generalize hq : Model.setAll _ _ = q
  have hblank : Model.setAll _ (Model.blank s o) = q := hq
  rw [hblank] at hall
  cases hall with
  | ok hschema hi => exact .inr ⟨_, rfl, rfl, hschema, hi⟩
  | failed => exact .inl ⟨_, rfl, rfl⟩

/-! ### In step but for what is read -/

/-- What came of something that is done to an instance, if nothing but a failure may stop it: an
instance that fits and whose storage cannot be told from that of the model. -/
inductive Yields (m : Model) : EStateM.Result Stop Instance Unit → Prop
  | ok {i : Instance} (hi : i.Fits) (h : m.Indistinct i.model) : Yields m (.ok () i)
  | failed {e : Error} {i : Instance} (hi : i.Fits) (h : m.Indistinct i.model) :
      Yields m (.error (.failed e) i)

theorem indistinct_model {i : Instance} (hi : i.Fits) (hs : i.schema.Sound) :
    i.model.Indistinct i.model :=
  .refl hs (hi.storage hs)

theorem Yields.of_indistinct {m m' : Model} {r : EStateM.Result Stop Instance Unit}
    (h : m.Indistinct m') (h' : Yields m' r) : Yields m r := by
  cases h' with
  | ok hi hr => exact .ok hi (h.trans hr)
  | failed hi hr => exact .failed hi (h.trans hr)

theorem Yields.bind {m : Model} {c c' : Change Unit} {i : Instance} (h : Yields m (c i))
    (h' : ∀ i' : Instance, i'.Fits → m.Indistinct i'.model → Yields m (c' i')) :
    Yields m ((c >>= fun _ => c') i) := by
  rw [Outcome.bind_apply]
  generalize c i = r at h
  cases h with
  | ok hi hr => exact h' _ hi hr
  | failed hi hr => exact .failed hi hr

theorem Matches.yields {s : Schema} {r : EStateM.Result Stop Instance Unit}
    {u : Model.Update Unit} {m : Model} (h : Matches s r (u m)) (hs : s.Sound) :
    Yields (Outcome.left u m) r := by
  rw [Outcome.left]
  generalize u m = q at h
  cases h with
  | ok hschema hi => exact .ok hi (indistinct_model hi (hschema ▸ hs))
  | failed hschema hi => exact .failed hi (indistinct_model hi (hschema ▸ hs))

/-- **What is done in a nested instance shows in its slot**, and in no other place. -/
theorem Yields.within {i : Instance} (hi : i.Fits) (hs : i.schema.Sound)
    {p : Primary (Component Schema)} (hp : p ∈ i.schema.primaries) {t : Schema}
    (ht : p.target.schema? = some t) {made : Option Instance}
    (hc : i.cells[p.slot]? = some (.nested made)) {c : Change Unit} {slots : List Slot}
    (h : ∀ n : Instance, n.Fits → n.model = Model.ofSlots t (Storage.inner t i.slots p.slot) →
      Yields (Model.ofSlots t slots) (c n)) :
    Yields { i.model with slots := i.slots.set p.slot (.opened slots) } (within p made c i) := by
  obtain ⟨n, hn, hplain, hfits, hslots⟩ := hi.exists_enter hs hp ht hc
  have hinner := h n hfits (hslots ▸ hplain.model_eq)
  have hput : ∀ n' : Instance, n'.Fits → (Model.ofSlots t slots).Indistinct n'.model →
      (i.setCell p.slot (.nested (some n'))).Fits ∧
        Model.Indistinct { i.model with slots := i.slots.set p.slot (.opened slots) }
          (i.setCell p.slot (.nested (some n'))).model := by
    intro n' hn' hsame
    refine ⟨hi.set_nested hs hp ht (plain_of_model_eq hsame.eq) hn', ?_⟩
    rw [model_setCell, Cell.slot]
    exact ⟨rfl, (indistinct_model hi hs).slots.set_opened hs hp ht hsame.slots⟩
  rw [Instance.within, hn]
  dsimp only
  generalize c n = r at hinner
  cases hinner with
  | ok hn' hsame => exact .ok (hput _ hn' hsame).1 (hput _ hn' hsame).2
  | failed hn' hsame => exact .failed (hput _ hn' hsame).1 (hput _ hn' hsame).2

/-! ### Reading -/

/-- Opening a nested instance leaves a model that cannot be told apart. -/
theorem indistinct_opened {i : Instance} (hi : i.Fits) (hs : i.schema.Sound)
    {p : Primary (Component Schema)} (hp : p ∈ i.schema.primaries) {t : Schema}
    (ht : p.target.schema? = some t) :
    i.model.Indistinct { i.model with
      slots := i.slots.set p.slot (.opened (Storage.inner t i.slots p.slot)) } := by
  have hfits := hi.storage hs
  have hinner := hfits.nested hp ht
  exact ⟨rfl, .set_opened hs hp ht (.refl (hs.nested hp ht) _), hfits,
    hfits.set_opened hs hp ht hinner⟩

mutual

/-- **Reading cannot be told**: nested instances that are made for it hold nothing. -/
theorem yields_read (r : Reading) {i : Instance} (hi : i.Fits) (hs : i.schema.Sound) :
    Yields i.model (Instance.read r i) := by
  match r with
  | .fields fields => exact yields_readAll fields hi hs

theorem yields_readAll (fields : List (String × Reading)) {i : Instance} (hi : i.Fits)
    (hs : i.schema.Sound) : Yields i.model (Instance.readAll fields i) := by
  match fields with
  | [] => exact .ok hi (indistinct_model hi hs)
  | (name, inner) :: fields =>
    rw [Instance.readAll]
    refine Yields.bind ?_ fun i' hi' hsame => ?rest
    case rest =>
      have hschema : i'.schema = i.schema := hsame.schema_eq
      exact .of_indistinct hsame (yields_readAll fields hi' (hschema ▸ hs))
    rcases hi.atField_cases hs name (fun _ => pure ()) (Instance.read inner)
      with ⟨-, hrun⟩ | ⟨p, -, -, -, hrun⟩ | ⟨p, hp, t, made, -, ht, hc, hrun⟩
    · rw [hrun]
      exact .failed hi (indistinct_model hi hs)
    · rw [hrun]
      exact .ok hi (indistinct_model hi hs)
    · rw [hrun]
      -- The model with the nested instance opened stands between the two.
      refine .of_indistinct (indistinct_opened hi hs hp ht) (.within hi hs hp ht hc ?_)
      intro n hn hmodel
      have hschema : n.schema = t := congrArg Model.schema hmodel
      exact hmodel ▸ yields_read inner hn (hschema ▸ hs.nested hp ht)

end

end Instance

/-! ### Uses -/

/-- What a use does to the model. Reading does nothing to it. -/
def Use.operation : Use → Model.Operation
  | read _ => .ask .own
  | attempt a => .attempt a
  | clear => .clear
  | inside name u => .inside name u.operation

/-- **What one use does**: it comes to an end, an ordinary failure at most, and leaves cells that
fit, with a storage that cannot be told from the model's. -/
theorem Use.yields_run (u : Use) {i : Instance} (hi : i.Fits) (hs : i.schema.Sound) :
    Instance.Yields (u.operation.run i.model).2 (u.run i) := by
  induction u generalizing i with
  | read r => exact Instance.yields_read r hi hs
  | attempt a => exact (Instance.matches_attempt hi hs a).yields hs
  | clear =>
    have hclear : i.clear.model.Indistinct i.clear.model :=
      Instance.indistinct_model hi.clear (i.schema_clear ▸ hs)
    exact .ok hi.clear (i.model_clear ▸ hclear)
  | inside name u ih =>
    rw [Use.operation, Use.run]
    rcases hi.atField_cases hs name (fun _ => throw (.failed (.notAModel name))) u.run
      with ⟨hp, hrun⟩ | ⟨p, -, hp, hk, hrun⟩ | ⟨p, hmem, t, made, hp, ht, hc, hrun⟩
    · rw [hrun, Model.run_inside_of_unbound hp]
      exact .failed hi (Instance.indistinct_model hi hs)
    · rw [hrun, Model.run_inside_of_leaf hp hk]
      exact .failed hi (Instance.indistinct_model hi hs)
    · rw [hrun, Model.run_inside_of_model hp ht]
      refine .within hi hs hmem ht hc fun n hn hmodel => ?_
      have hschema : n.schema = t := congrArg Model.schema hmodel
      have hinner := ih hn (hschema ▸ hs.nested hmem ht)
      rw [hmodel] at hinner
      rwa [Model.run_eq] at hinner

/-- The model after operations, one after the other. -/
def Model.afterwards : List Operation → Model → Model
  | [], m => m
  | o :: ops, m => afterwards ops (o.run m).2

theorem Model.schema_afterwards (ops : List Operation) (m : Model) :
    (afterwards ops m).schema = m.schema := by
  induction ops generalizing m with
  | nil => rfl
  | cons o ops ih => rw [afterwards, ih, schema_run]

namespace Instance

/-- **What any number of uses does**, with a model that could not be told from the instance. -/
theorem exists_after (uses : List Use) {m : Model} {i : Instance} (hi : i.Fits)
    (hs : m.schema.Sound) (h : m.Indistinct i.model) :
    ∃ i', after uses i = .ok i' ∧ i'.Fits ∧
      (Model.afterwards (uses.map Use.operation) m).Indistinct i'.model := by
  induction uses generalizing m i with
  | nil => exact ⟨i, rfl, hi, h⟩
  | cons u uses ih =>
    have hschema : i.schema = m.schema := h.schema_eq
    have hnext := (Model.schema_run u.operation m).symm ▸ hs
    have hstep := (u.yields_run hi (hschema ▸ hs)).of_indistinct (h.run hs u.operation).2
    rw [after, List.map_cons, Model.afterwards]
    -- What a failed use left is used further, as what a use that was done left.
    generalize u.run i = r at hstep
    cases hstep with
    | ok hi' h' => exact ih hi' hnext h'
    | failed hi' h' => exact ih hi' hnext h'

/-- **What is tried answers as it does with a model** that cannot be told from the instance. -/
theorem answer_attempt {m : Model} {i : Instance} (hi : i.Fits) (hs : m.schema.Sound)
    (h : m.Indistinct i.model) (a : Model.Attempt) :
    Outcome.answer (attempt a) i = (Outcome.answer a.run m).mapError .failed := by
  have hschema : i.schema = m.schema := h.schema_eq
  have hstep := matches_attempt hi (hschema ▸ hs) a
  rw [← (Model.respects_run a m i.model hs h).1, Outcome.answer, Outcome.answer]
  generalize attempt a i = r at hstep
  generalize a.run i.model = q at hstep
  cases hstep <;> rfl

open Schema (Compiled Everywhere)

/-- **Instances always fit their schemas.** However an instance of a compiled schema is made and
whatever is done with it or with the nested instances in it, at whatever depth: nothing but an
ordinary failure stops what is done, so that every slot is there, a nested instance is made only
where the field nests a schema, and it is there once it was made. There is one cell for each
primary, nested exactly where the primary nests a schema; every nested instance that was made is an
instance of that schema, has nothing of its own, and fits, too. And all the while it cannot be told
from the model that is made and used in the same way. -/
theorem fits_after {s : Schema} (hcompiled : Everywhere Compiled s) (o : Model.Options)
    (uses : List Use) :
    (∃ e, withOptions s o = .error (.failed e) ∧ Model.withOptions s o = .error e) ∨
      ∃ i, withOptions s o = .ok i ∧ Model.withOptions s o = .ok i.model ∧
        ∃ i', after uses i = .ok i' ∧ i'.schema = s ∧ i'.Fits ∧
          (Model.afterwards (uses.map Use.operation) i.model).Indistinct i'.model := by
  have hs := Schema.sound_of_compiled hcompiled
  rcases withOptions_cases hs o with hfailed | ⟨i, hi, hm, hschema, hfits⟩
  · exact .inl hfailed
  · have hsound : i.schema.Sound := hschema ▸ hs
    obtain ⟨i', hafter, hfits', hsame⟩ :=
      exists_after uses hfits hsound (indistinct_model hfits hsound)
    have hschema' : i'.schema = (Model.afterwards (uses.map Use.operation) i.model).schema :=
      hsame.schema_eq
    rw [Model.schema_afterwards] at hschema'
    exact .inr ⟨i, hi, hm, i', hafter, hschema'.trans hschema, hfits', hsame⟩

open Schema.Sample (shipment compiled_shipment) in
/-- A shipment that is made with a number and a note, read, given a label by aliases, refused a
number for a state, and cleared, within its parcel first, has a parcel with nothing in it. -/
theorem fits_after_of_shipment :
    Everywhere Compiled shipment ∧
      ∃ i i', withOptions shipment
          ⟨none, ∅, .ofList [("number", .string "A1"), ("note", .null)]⟩ = .ok i ∧
        after [.read (.fields [("content", .fields [("tag", .fields [])])]),
          .attempt (.writeAt ["content", "tag"] (.set (.bytes [2]))),
          .attempt (.loadState (.integer 1)), .inside "parcel" .clear, .clear] i = .ok i' ∧
        i'.Fits ∧ i'.slots = [.leaf none, .opened [.leaf none, .leaf none]] := by
  refine ⟨compiled_shipment, ?_⟩
  rcases fits_after compiled_shipment
      ⟨none, ∅, .ofList [("number", .string "A1"), ("note", .null)]⟩
      [.read (.fields [("content", .fields [("tag", .fields [])])]),
        .attempt (.writeAt ["content", "tag"] (.set (.bytes [2]))),
        .attempt (.loadState (.integer 1)), .inside "parcel" .clear, .clear]
    with ⟨e, h, -⟩ | ⟨i, hi, -, i', hafter, -, hfits, -⟩
  · cases h
  · refine ⟨i, i', hi, hafter, hfits, ?_⟩
    cases hi
    cases hafter
    rfl

end Instance

end VersionedModel
