import VersionedModel.Proofs.Model.Places
import VersionedModel.Proofs.Model.Versions

/-!
# Gaps

The leaves that take part in a snapshot stand in an order: depth first, and in order of declaration
(`Model.leavesUnder`, `Model.leavesUnder_eq`). A leaf at which nothing is stored and for which there
is no default is a gap. A snapshot with a value to fill in has this value at every gap and what is
held at every other leaf (`Model.at?_of_mem_leavesUnder`); a snapshot without one fails at the first
gap (`Model.failure?_snapshot?`). Hence the snapshots of an instance without gaps are all the same,
whatever there is to fill in, and an instance with gaps has as many as there are values to fill in
(`Model.snapshot?_fill_law`).
-/

namespace VersionedModel

open Schema (Everywhere Compiled)

/-- A leaf with the way to it. -/
structure Leaf where
  /-- The fields of nested models that are passed on the way, the outermost first. -/
  way : List (Primary (Component Schema))
  /-- The leaf itself. -/
  field : Primary (Component Schema)

namespace Leaf

variable (p : Primary (Component Schema)) (l : Leaf)

/-- The fields on the way, and the leaf. -/
def chain : List (Primary (Component Schema)) :=
  l.way ++ [l.field]

/-- Their names. -/
def names : List String :=
  l.chain.map Primary.name

/-- Their slots. -/
def place : List Nat :=
  l.chain.map Primary.slot

/-- The leaf as seen from an instance that has the model around it in the field `p`. -/
def inside : Leaf :=
  ⟨p :: l.way, l.field⟩

theorem names_inside : (l.inside p).names = p.name :: l.names := rfl

theorem place_inside : (l.inside p).place = p.slot :: l.place := rfl

theorem names_ne_nil : l.names ≠ [] := by
  simp [names, chain]

theorem place_ne_nil : l.place ≠ [] := by
  simp [place, chain]

end Leaf

namespace Model

/-! ### The leaves that take part -/

/-- The leaves that take part, by a schema. -/
def leavesBy (w : Workspace) : Schema → Model → Settings → List Leaf :=
  Schema.fold fun _ fields m call =>
    (fields.filter fun e => m.admits w call e.1).flatMap fun e =>
      match e.1.target.schema?, e.2 with
      | some t, some leaves => (leaves (new t) (call.overlay m.settings)).map (Leaf.inside e.1)
      | _, _ => [⟨[], e.1⟩]

/-- The leaves that take part when a model is called with some settings, depth first, in order of
declaration. Nested models are called with these settings overlaid by the model's own. -/
def leavesUnder (w : Workspace) (m : Model) (call : Settings) : List Leaf :=
  leavesBy w m.schema m call

theorem leavesUnder_eq (w : Workspace) (m : Model) (call : Settings) :
    m.leavesUnder w call =
      (m.schema.primaries.filter (m.admits w call)).flatMap fun p =>
        match p.target.schema? with
        | some t => ((new t).leavesUnder w (call.overlay m.settings)).map (Leaf.inside p)
        | none => [⟨[], p⟩] := by
  rw [leavesUnder, leavesBy, Schema.fold_eq]
  simp only [List.filter_map, List.flatMap_map, Function.comp_def]
  congr 1
  funext p
  cases p.target.schema? <;> rfl

/-- Which leaves take part is a matter of the schema and the settings. -/
theorem leavesUnder_congr {w : Workspace} {m n : Model} (hschema : n.schema = m.schema)
    (hsettings : n.settings = m.settings) (call : Settings) :
    n.leavesUnder w call = m.leavesUnder w call := by
  rw [leavesUnder_eq, leavesUnder_eq, admits_congr hschema hsettings, hschema, hsettings]

/-- What is stored does not count. -/
theorem leavesUnder_ofSlots (w : Workspace) (t : Schema) (slots : List Slot) (call : Settings) :
    (ofSlots t slots).leavesUnder w call = (new t).leavesUnder w call :=
  leavesUnder_congr (m := new t) (n := ofSlots t slots) rfl rfl call

/-- A leaf that takes part is a primary that takes part, or stands in a nested model that does. -/
theorem mem_leavesUnder_cases {w : Workspace} {m : Model} {call : Settings} {l : Leaf}
    (hl : l ∈ m.leavesUnder w call) :
    ∃ p ∈ m.schema.primaries, m.admits w call p = true ∧
      (p.target.schema? = none ∧ l = ⟨[], p⟩ ∨
        ∃ t l', p.target.schema? = some t ∧
          l' ∈ (new t).leavesUnder w (call.overlay m.settings) ∧ l = l'.inside p) := by
  rw [leavesUnder_eq, List.mem_flatMap] at hl
  obtain ⟨p, hp, hl⟩ := hl
  obtain ⟨hp, ha⟩ := List.mem_filter.1 hp
  refine ⟨p, hp, ha, ?_⟩
  cases ht : p.target.schema? with
  | none =>
    rw [ht] at hl
    exact .inl ⟨rfl, List.mem_singleton.1 hl⟩
  | some t =>
    rw [ht] at hl
    obtain ⟨l', hl', rfl⟩ := List.mem_map.1 hl
    exact .inr ⟨t, l', rfl, hl', rfl⟩

theorem schema?_of_mem_leavesUnder {w : Workspace} {m : Model} {call : Settings} {l : Leaf}
    (hs : m.schema.Sound) (hl : l ∈ m.leavesUnder w call) : l.field.target.schema? = none := by
  induction m, hs using nested_induction generalizing call l with
  | step m hs ih =>
    obtain ⟨p, hp, -, ⟨ht, rfl⟩ | ⟨t, l', ht, hl', rfl⟩⟩ := mem_leavesUnder_cases hl
    · exact ht
    · exact ih p hp t ht t.fresh (l := l') hl'

/-! ### What leaves hold -/

/-- The value that is stored at a leaf, or else its default. -/
def held? (m : Model) (l : Leaf) : Option Value :=
  (Storage.storedAt? m.slots l.place).or (m.fallbackAt l.names l.field)

theorem held?_of_way_nil (m : Model) (p : Primary (Component Schema)) :
    m.held? ⟨[], p⟩ = (Storage.stored? m.slots p.slot).or (m.defaultFor p p.name) := rfl

/-- A leaf of a nested model holds what it holds there. -/
theorem held?_inside (m : Model) (p : Primary (Component Schema)) (t : Schema) (l : Leaf) :
    m.held? (l.inside p) = (ofSlots t (Storage.inner t m.slots p.slot)).held? l := by
  rw [held?, l.place_inside p, l.names_inside p, Storage.storedAt?_cons t l.place_ne_nil,
    fallbackAt_cons m p.name l.names_ne_nil, held?, fallbackAt_ofSlots]
  rfl

/-- Instances that differ in their storages only hold the same at a leaf if they store the same at
its place. -/
theorem held?_congr {m : Model} {slots : List Slot} {l : Leaf}
    (h : Storage.storedAt? slots l.place = Storage.storedAt? m.slots l.place) :
    held? { m with slots := slots } l = m.held? l := by
  rw [held?, held?, h]
  rfl

/-! ### Snapshots with something to fill in -/

/-- **A filled snapshot has, at each leaf that takes part, what is held there, and at gaps what was
to be filled in.** -/
theorem at?_of_mem_leavesUnder {w : Workspace} {m : Model} {f : Value} {call : Settings}
    {st : State} {l : Leaf} (hs : m.schema.Sound) (hst : m.snapshot? w (some f) call = .ok st)
    (hl : l ∈ m.leavesUnder w call) :
    st.toValue.at? l.names = some ((m.held? l).getD f) := by
  induction m, hs using nested_induction generalizing call st l with
  | step m hs ih =>
    obtain ⟨p, hp, ha, hl⟩ := mem_leavesUnder_cases hl
    obtain ⟨x, hx, hat⟩ := at?_of_admits hs.here.nodup_names hst hp ha
    obtain ⟨ht, rfl⟩ | ⟨t, l', ht, hl', rfl⟩ := hl
    · rw [gives_of_leaf ht, ← held?_of_way_nil] at hx
      refine (hat []).trans (congrArg some ?_)
      cases hheld : m.held? ⟨[], p⟩ with
      | none =>
        rw [hheld] at hx
        exact (Except.ok.inj hx).symm
      | some v =>
        rw [hheld] at hx
        exact (Except.ok.inj hx).symm
    · -- The rest of the way leads through the snapshot of the nested model.
      obtain ⟨inner, hinner, rfl⟩ := exists_snapshot_of_gives ht hx
      rw [l'.names_inside p, hat, held?_inside m p t]
      rw [← leavesUnder_ofSlots w t (Storage.inner t m.slots p.slot)] at hl'
      exact ih p hp t ht _ hinner hl'

/-- Where nothing is missing, nothing is filled in. -/
theorem snapshot?_some_of_none {w : Workspace} {m : Model} {call : Settings} {st : State}
    (hs : m.schema.Sound) (h : m.snapshot? w none call = .ok st) (f : Value) :
    m.snapshot? w (some f) call = .ok st := by
  induction m, hs using nested_induction generalizing call st with
  | step m hs ih =>
    rw [← h, snapshot?_eq_gives, snapshot?_eq_gives]
    congr 1
    refine Outcome.mapM_congr fun p hp => ?_
    obtain ⟨x, hx, -⟩ := mem_of_entries ((snapshot?_eq_ok hs.here.nodup_names).1 h) hp
    have hfilled : m.gives w (some f) call p = .ok x := by
      cases ht : p.target.schema? with
      | none =>
        rw [gives_of_leaf ht] at hx ⊢
        cases hheld : (Storage.stored? m.slots p.slot).or (m.defaultFor p p.name) with
        | none =>
          rw [hheld] at hx
          cases hx
        | some v => rwa [hheld] at hx
      | some t =>
        obtain ⟨inner, hinner, rfl⟩ := exists_snapshot_of_gives ht hx
        rw [gives_of_model ht, ih p (List.mem_filter.1 hp).1 t ht _ hinner]
        rfl
    rw [hx, hfilled]

/-! ### Snapshots with nothing to fill in -/

/-- The error about a leaf that has no value. -/
def missingAt (l : Leaf) : Error :=
  .missingValue l.field.name l.field.target.kindName

/-- **A snapshot with nothing to fill in fails at the first gap.** The induction is on the schema: a
field of a nested model fails as the nested model does, and the first field that fails counts. -/
theorem failure?_snapshot? {w : Workspace} {m : Model} (hs : m.schema.Sound) (call : Settings) :
    Outcome.failure? (m.snapshot? w none call) =
      ((m.leavesUnder w call).find? fun l => (m.held? l).isNone).map missingAt := by
  induction m, hs using nested_induction generalizing call with
  | step m hs ih =>
    rw [snapshot?_eq_gives, Outcome.failure?_bind_pure, leavesUnder_eq, List.find?_flatMap,
      List.map_findSome?]
    refine Outcome.failure?_mapM fun p hp => ?_
    rw [Outcome.failure?_bind_pure, Function.comp_apply]
    cases ht : p.target.schema? with
    | none =>
      dsimp only
      rw [gives_of_leaf ht, List.find?_singleton, held?_of_way_nil]
      cases (Storage.stored? m.slots p.slot).or (m.defaultFor p p.name) <;> rfl
    | some t =>
      dsimp only
      rw [gives_of_model ht, Outcome.failure?_map, ih p (List.mem_filter.1 hp).1 t ht,
        leavesUnder_ofSlots, List.find?_map, Option.map_map]
      simp only [Function.comp_def, held?_inside m p t]
      rfl

theorem snapshot?_eq_error_iff {w : Workspace} {m : Model} (hs : m.schema.Sound) {call : Settings}
    {e : Error} :
    m.snapshot? w none call = .error e ↔
      ∃ before l after, m.leavesUnder w call = before ++ l :: after ∧
        (∀ l' ∈ before, m.held? l' ≠ none) ∧ m.held? l = none ∧ e = missingAt l := by
  rw [← Outcome.failure?_eq_some_iff, failure?_snapshot? hs, Option.map_eq_some_iff]
  simp only [List.find?_eq_some_iff_append, Option.isNone_iff_eq_none, Bool.not_eq_true',
    Option.isNone_eq_false_iff, Option.isSome_iff_ne_none]
  constructor
  · rintro ⟨l, ⟨hgap, before, after, hleaves, hbefore⟩, rfl⟩
    exact ⟨before, l, after, hleaves, hbefore, hgap, rfl⟩
  · rintro ⟨before, l, after, hleaves, hbefore, hgap, rfl⟩
    exact ⟨l, ⟨hgap, before, after, hleaves, hbefore⟩, rfl⟩

/-- Without a gap a snapshot succeeds with nothing to fill in. -/
theorem exists_snapshot_of_held {w : Workspace} {m : Model} (hs : m.schema.Sound) {call : Settings}
    (h : ∀ l ∈ m.leavesUnder w call, m.held? l ≠ none) :
    ∃ st, m.snapshot? w none call = .ok st := by
  cases hst : m.snapshot? w none call with
  | ok st => exact ⟨st, rfl⟩
  | error e =>
    obtain ⟨before, l, after, hleaves, -, hgap, -⟩ := (snapshot?_eq_error_iff hs).1 hst
    exact absurd hgap (h l (by simp [hleaves]))

/-! ### With and without something to fill in -/

/-- **What there is to fill in makes a difference exactly if there is a gap.** A snapshot with
something to fill in always succeeds. One with nothing to fill in gives what all the others give, if
these are the same; otherwise it fails, with the name and the kind of the first leaf that takes part
and has neither a stored value nor a default. -/
theorem snapshot?_fill_law {w : Workspace} {m : Model} (hcompiled : Everywhere Compiled m.schema)
    (call : Settings) :
    (∀ f, ∃ st, m.snapshot? w (some f) call = .ok st) ∧
      (∀ st, m.snapshot? w none call = .ok st ↔ ∀ f, m.snapshot? w (some f) call = .ok st) ∧
      ∀ e, m.snapshot? w none call = .error e ↔
        ∃ before l after k, m.leavesUnder w call = before ++ l :: after ∧
          (∀ l' ∈ before, m.held? l' ≠ none) ∧ m.held? l = none ∧
          l.field.target.kind = .leaf k ∧ e = .missingValue l.field.name k.name := by
  have hs := Schema.sound_of_compiled hcompiled
  have hfill : ∀ f, ∃ st, m.snapshot? w (some f) call = .ok st := fun f =>
    exists_snapshot_of_fill (hs.mono fun _ h => h.nodup_names) f call
  refine ⟨hfill, fun st => ⟨fun h f => snapshot?_some_of_none hs h f, fun h => ?_⟩, fun e => ?_⟩
  · cases hnone : m.snapshot? w none call with
    | ok st' => rw [← h .null, snapshot?_some_of_none hs hnone .null]
    | error e =>
      -- Two values that are filled in at the first gap would be the same.
      obtain ⟨before, l, after, hleaves, -, hgap, -⟩ := (snapshot?_eq_error_iff hs).1 hnone
      have hl : l ∈ m.leavesUnder w call := by simp [hleaves]
      have hat : ∀ f, st.toValue.at? l.names = some f := by
        intro f
        rw [at?_of_mem_leavesUnder hs (h f) hl, hgap, Option.getD_none]
      have heq := (hat .null).symm.trans (hat (.bool true))
      cases heq
  · rw [snapshot?_eq_error_iff hs]
    constructor
    · rintro ⟨before, l, after, hleaves, hbefore, hgap, rfl⟩
      have hl : l ∈ m.leavesUnder w call := by simp [hleaves]
      obtain ⟨k, hk⟩ := Component.schema?_eq_none_iff.1 (schema?_of_mem_leavesUnder hs hl)
      refine ⟨before, l, after, k, hleaves, hbefore, hgap, hk, ?_⟩
      rw [missingAt, Component.kindName, hk]
    · rintro ⟨before, l, after, k, hleaves, hbefore, hgap, hk, rfl⟩
      refine ⟨before, l, after, hleaves, hbefore, hgap, ?_⟩
      rw [missingAt, Component.kindName, hk]

/-! ### A person without a city -/

open Schema.Sample (city person town)

/-- A person with a name. -/
def homeless : Model :=
  { new person with slots := [.leaf (some (.string "Rosa")), .closed] }

/-- Under version 1 nothing is missing; under version 2 it is the city of the person's home. -/
theorem snapshot?_fill_law_of_homeless :
    Everywhere Compiled homeless.schema ∧
      (∀ f, homeless.snapshot? town (some f) (.ofList [(versionKey, .integer 1)]) =
        .ok ⟨[("name", .string "Rosa"), ("home", .map [])]⟩) ∧
      (∃ st, homeless.snapshot? town (some (.bool true)) (.ofList [(versionKey, .integer 2)]) =
        .ok st) ∧
      homeless.snapshot? town none (.ofList [(versionKey, .integer 2)]) =
        .error (.missingValue "city" "string") := by
  have hcompiled : Everywhere Compiled homeless.schema :=
    (Schema.Sample.everywhere_kept (fun _ => True) fun _ _ => trivial).mono fun _ =>
      Schema.Kept.compiled
  have hfirst := snapshot?_fill_law (w := town) hcompiled (.ofList [(versionKey, .integer 1)])
  have hsecond := snapshot?_fill_law (w := town) hcompiled (.ofList [(versionKey, .integer 2)])
  have hleaves : homeless.leavesUnder town (.ofList [(versionKey, .integer 2)]) =
      [⟨[], ⟨"name", 0, { Component.ofKind (.leaf .string) with id := 1, name := some "name" }⟩⟩,
        ⟨[⟨"home", 1, { Component.ofKind (.model Schema.Sample.address) with
            id := 2, name := some "home" }⟩], ⟨"city", 0, city⟩⟩] := rfl
  refine ⟨hcompiled, (hfirst.2.1 _).1 rfl, hsecond.1 _, (hsecond.2.2 _).2 ?_⟩
  refine ⟨[_], _, [], .string, hleaves, ?_, rfl, rfl, rfl⟩
  exact List.forall_mem_singleton.2 (by simp [held?, homeless, Leaf.place, Leaf.chain,
    Storage.storedAt?, Storage.stored?])

end Model

end VersionedModel
