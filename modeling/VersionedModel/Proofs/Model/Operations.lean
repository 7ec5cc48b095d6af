import VersionedModel.Model.Order
import VersionedModel.Proofs.Model.Simulation

/-!
# Operations on instances

An instance is used by operations: it is asked something, changed, cleared, or a nested instance
that it holds is used, which is opened for this (`Model.Operation`). Instances that cannot be told
apart answer every operation alike and cannot be told apart afterwards (`Model.Indistinct.run`), so
they answer whole sequences alike (`Model.Indistinct.answers_eq`).
-/

namespace VersionedModel

namespace Model

/-! ### Questions -/

/-- What an instance can be asked. -/
inductive Query where
  /-- What it has of its own. -/
  | own
  /-- The settings that count under given ones. -/
  | effective (call : Settings)
  /-- What a codec is told. -/
  | context (w : Workspace) (call : Settings)
  /-- What is at the end of a chain of names. -/
  | readAt (names : List String)
  /-- What all fields give. -/
  | reads
  /-- The value of a field. -/
  | get (w : Workspace) (name : String)
  /-- The state. -/
  | state (w : Workspace)
  /-- A snapshot. -/
  | snapshot (w : Workspace) (fill : Option Value) (call : Settings)
  /-- The defaults. -/
  | defaultState
  /-- Whether it equals another instance, and the other way round. -/
  | same (w : Workspace) (other : Model)
  /-- How it compares to another instance, and the other way round. -/
  | compare (w : Workspace) (other : Model)
  /-- The payload of its snapshot. -/
  | dump (w : Workspace) (t : Target) (call : Settings)

/-- What comes back from an operation. -/
inductive Answer where
  /-- What an instance has of its own. -/
  | own (schema : Schema) (name : String) (defaults : Dict Value) (settings : Settings)
  /-- Settings. -/
  | settings (settings : Settings)
  /-- What a codec is told. -/
  | context (context : ModelContext)
  /-- What is shown of a field. -/
  | read (read : Except Error View)
  /-- What is shown of all fields. -/
  | reads (reads : List (String × View))
  /-- A value, if there is one. -/
  | value (v : Except Error (Option Value))
  /-- A state. -/
  | state (st : State)
  /-- A snapshot. -/
  | snapshot (st : Except Error State)
  /-- Equality from both sides. -/
  | same (left right : Bool)
  /-- The order from both sides. -/
  | order (left right : Option Ordering)
  /-- A payload. -/
  | payload (payload : Except Error (List UInt8))
  /-- Whether it was done. -/
  | done (outcome : Except Error Unit)

/-- What the instance answers. -/
def Query.answer (m : Model) : Query → Answer
  | own => .own m.schema m.name m.defaults m.settings
  | effective call => .settings (m.effective call)
  | context w call => .context (m.context w call)
  | readAt names => .read (Read.view <$> m.readAt names)
  | reads => .reads (m.reads.map fun e => (e.1, e.2.view))
  | get w name => .value (m.get w name)
  | state w => .state (m.state w)
  | snapshot w fill call => .snapshot (m.snapshot? w fill call)
  | defaultState => .state m.defaultState
  | same w other => .same (m.same w other) (other.same w m)
  | compare w other => .order (m.compare w other) (other.compare w m)
  | dump w t call => .payload (m.dump w t call)

theorem Agree.reads_view {m m' : Model} (h : m.Agree m') :
    m'.reads.map (fun e => (e.1, e.2.view)) = m.reads.map fun e => (e.1, e.2.view) := by
  rw [reads, reads, h.schema_eq, List.map_map, List.map_map]
  refine List.map_congr_left fun p hp => ?_
  dsimp only [Function.comp_apply]
  rcases h.readPrimary hp p.name with hr | ⟨n, n', hagree, hn, hn'⟩
  · rw [hr]
  · rw [hn, hn', hagree.view_eq]

/-- **Instances that cannot be told apart answer alike.** -/
theorem Indistinct.answer_eq {m m' : Model} (h : m.Indistinct m') (q : Query) :
    q.answer m' = q.answer m := by
  have hview := h.agree.sameView
  have heffective : ∀ call, m'.effective call = m.effective call := fun call => by
    rw [h.eq]
    rfl
  cases q with
  | own => rw [Query.answer, Query.answer, hview.schema, hview.name, hview.defaults, hview.settings]
  | effective call => rw [Query.answer, Query.answer, heffective]
  | context w call => rw [Query.answer, Query.answer, h.context_eq]
  | readAt names => rw [Query.answer, Query.answer, hview.readAt]
  | reads => rw [Query.answer, Query.answer, h.agree.reads_view]
  | get w name => rw [Query.answer, Query.answer, hview.get]
  | state w => rw [Query.answer, Query.answer, hview.state]
  | snapshot w fill call => rw [Query.answer, Query.answer, hview.snapshot]
  | defaultState =>
    rw [h.eq]
    rfl
  | same w other =>
    rw [Query.answer, Query.answer, same, same, same, same, hview.state]
  | compare w other =>
    rw [Query.answer, Query.answer, compare, compare, compare, compare, hview.state]
  | dump w t call =>
    rw [Query.answer, Query.answer, dump, dump, h.serializerFor_eq, hview.snapshot, heffective]

/-! ### Operations -/

/-- One use of an instance, or of a nested one that it holds. -/
inductive Operation where
  /-- Something is asked. -/
  | ask (q : Query)
  /-- Something is tried. -/
  | attempt (a : Attempt)
  /-- Everything is cleared. -/
  | clear
  /-- The nested instance in a field is used, and opened for this. -/
  | inside (name : String) (o : Operation)

/-- What comes back, and what the instance is afterwards. -/
def Operation.run : Operation → Model → Answer × Model
  | ask q, m => (q.answer m, m)
  | attempt a, m => (.done (Outcome.answer a.run m), Outcome.left a.run m)
  | clear, m => (.done (.ok ()), m.clear)
  | inside name o, m =>
    match Storage.primary m.schema name with
    | .error e => (.done (.error e), m)
    | .ok p =>
      match p.target.kind with
      | .leaf _ => (.done (.error (.notAModel name)), m)
      | .model t =>
        let used := o.run (ofSlots t (Storage.inner t m.slots p.slot))
        (used.1, { m with slots := m.slots.set p.slot (.opened used.2.slots) })

/-- What comes back from operations, one after the other. -/
def answers : List Operation → Model → List Answer
  | [], _ => []
  | o :: ops, m => (o.run m).1 :: answers ops (o.run m).2

section Inside

variable {m : Model} {name : String} {p : Primary (Component Schema)}

/-- What is done inside a field is done to the nested instance that it holds. Where it holds none,
it fails and changes nothing. -/
theorem run_inside (m : Model) (name : String) (o : Operation) :
    (Operation.inside name o).run m =
      (m.schema.resolve? name).elim (.done (.error (.unknownField name)), m) fun p =>
        p.target.schema?.elim (.done (.error (.notAModel name)), m) fun t =>
          ((o.run (ofSlots t (Storage.inner t m.slots p.slot))).1,
            { m with
              slots := m.slots.set p.slot
                (.opened (o.run (ofSlots t (Storage.inner t m.slots p.slot))).2.slots) }) := by
  rw [Operation.run, Storage.primary]
  cases m.schema.resolve? name with
  | none => rfl
  | some p =>
    dsimp only [Option.elim_some]
    cases hk : p.target.kind with
    | leaf k => rw [Component.schema?_eq_none_iff.2 ⟨k, hk⟩, Option.elim_none]
    | model t => rw [Component.schema?_eq_some_iff.2 hk, Option.elim_some]

theorem run_inside_of_unbound (hp : m.schema.resolve? name = none) (o : Operation) :
    (Operation.inside name o).run m = (.done (.error (.unknownField name)), m) := by
  rw [run_inside, hp, Option.elim_none]

theorem run_inside_of_leaf (hp : m.schema.resolve? name = some p)
    (hk : p.target.schema? = none) (o : Operation) :
    (Operation.inside name o).run m = (.done (.error (.notAModel name)), m) := by
  rw [run_inside, hp, Option.elim_some, hk, Option.elim_none]

theorem run_inside_of_model {t : Schema} (hp : m.schema.resolve? name = some p)
    (ht : p.target.schema? = some t) (o : Operation) :
    (Operation.inside name o).run m =
      ((o.run (ofSlots t (Storage.inner t m.slots p.slot))).1,
        { m with
          slots := m.slots.set p.slot
            (.opened (o.run (ofSlots t (Storage.inner t m.slots p.slot))).2.slots) }) := by
  rw [run_inside, hp, Option.elim_some, ht, Option.elim_some]

end Inside

/-- An operation changes the storage only. -/
theorem run_eq (o : Operation) (m : Model) :
    (o.run m).2 = { m with slots := (o.run m).2.slots } := by
  cases o with
  | ask q => rfl
  | attempt a =>
    obtain ⟨slots, h, -⟩ := sustains_run a m
    change Outcome.left a.run m = { m with slots := (Outcome.left a.run m).slots }
    rw [h]
  | clear => rfl
  | inside name o =>
    cases hp : m.schema.resolve? name with
    | none => rw [run_inside_of_unbound hp]
    | some p =>
      cases hk : p.target.schema? with
      | none => rw [run_inside_of_leaf hp hk]
      | some t => rw [run_inside_of_model hp hk]

/-- No operation changes the schema. -/
theorem schema_run (o : Operation) (m : Model) : (o.run m).2.schema = m.schema := by
  rw [run_eq]

/-- What a nested instance goes through, the instance that holds it goes through. -/
theorem steps_inside {m n : Model} {p : Primary (Component Schema)} {t : Schema}
    (hp : p ∈ m.schema.primaries) (ht : p.target.schema? = some t) (hlt : p.slot < m.slots.length)
    (h : Relation.ReflTransGen Step (ofSlots t (Storage.inner t m.slots p.slot)) n) :
    Relation.ReflTransGen Step m { m with slots := m.slots.set p.slot (.opened n.slots) } := by
  induction h with
  | refl =>
    -- To open it is as much as to try something in it that fails at once.
    exact .single (.inside hp ht (.attempt _ (.writeAt [] .clear)))
  | @tail n k hsteps hstep ih =>
    obtain ⟨slots, rfl, -⟩ := sustains_of_history hsteps
    have hnext := Step.inside (m := { m with slots := m.slots.set p.slot (.opened slots) })
      (n := k) hp ht (by rw [Storage.inner_set_opened hlt]; exact hstep)
    rw [List.set_set] at hnext
    exact ih.tail hnext

/-- **An operation is something that an instance goes through.** -/
theorem steps_run {m : Model} (hs : m.schema.Sound) (hfits : Storage.Fits m.schema m.slots)
    (o : Operation) : Relation.ReflTransGen Step m (o.run m).2 := by
  induction o generalizing m with
  | ask q => exact .refl
  | attempt a => exact .single (.attempt m a)
  | clear => exact .single (.clear m)
  | inside name o ih =>
    cases hp : m.schema.resolve? name with
    | none =>
      rw [run_inside_of_unbound hp]
    | some p =>
      cases hk : p.target.schema? with
      | none =>
        rw [run_inside_of_leaf hp hk]
      | some t =>
        have hmem := Schema.mem_of_resolve? hp
        rw [run_inside_of_model hp hk]
        exact steps_inside hmem hk (hfits.slot_lt hs hmem)
          (ih (m := ofSlots t (Storage.inner t m.slots p.slot)) (hs.nested hmem hk)
            (hfits.nested hmem hk))

theorem Reachable.run {m : Model} (h : m.Reachable) (hs : m.schema.Sound) (o : Operation) :
    (o.run m).2.Reachable := by
  have hfits := h.fits hs
  obtain ⟨s, options, m₀, hmade, hhistory⟩ := h
  exact ⟨s, options, m₀, hmade, hhistory.trans (steps_run hs hfits o)⟩

/-- **Instances that cannot be told apart answer an operation alike, and cannot be told apart
afterwards**, at whatever depth it is done. -/
theorem Indistinct.run {m m' : Model} (hs : m.schema.Sound) (h : m.Indistinct m')
    (o : Operation) : (o.run m').1 = (o.run m).1 ∧ (o.run m).2.Indistinct (o.run m').2 := by
  induction o generalizing m m' with
  | ask q => exact ⟨h.answer_eq q, h⟩
  | attempt a =>
    obtain ⟨hanswer, hleft⟩ := respects_run a m m' hs h
    exact ⟨congrArg Answer.done hanswer, hleft⟩
  | clear => exact ⟨rfl, congrArg Model.clear h.eq, h.slots.clearAll hs⟩
  | inside name o ih =>
    cases hp : m.schema.resolve? name with
    | none =>
      rw [run_inside_of_unbound hp, run_inside_of_unbound (h.schema_eq ▸ hp)]
      exact ⟨rfl, h⟩
    | some p =>
      cases hk : p.target.schema? with
      | none =>
        rw [run_inside_of_leaf hp hk, run_inside_of_leaf (h.schema_eq ▸ hp) hk]
        exact ⟨rfl, h⟩
      | some t =>
        have hmem := Schema.mem_of_resolve? hp
        have hnested : (ofSlots t (Storage.inner t m.slots p.slot)).Indistinct
            (ofSlots t (Storage.inner t m'.slots p.slot)) := ⟨rfl, h.slots.nested hmem hk⟩
        obtain ⟨hanswer, hused⟩ := ih (hs.nested hmem hk) hnested
        have hslots := hused.slots
        rw [schema_run] at hslots
        rw [run_inside_of_model hp hk, run_inside_of_model (h.schema_eq ▸ hp) hk]
        refine ⟨hanswer, ?_, h.slots.set_opened hs hmem hk hslots⟩
        rw [h.eq]

/-- **Instances that cannot be told apart answer every sequence of operations alike.** -/
theorem Indistinct.answers_eq {m m' : Model} (hs : m.schema.Sound) (h : m.Indistinct m')
    (ops : List Operation) : answers ops m' = answers ops m := by
  induction ops generalizing m m' with
  | nil => rfl
  | cons o ops ih =>
    obtain ⟨hanswer, hafter⟩ := h.run hs o
    rw [answers, answers, hanswer, ih ((schema_run o m).symm ▸ hs) hafter]

end Model

end VersionedModel
