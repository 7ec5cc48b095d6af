import VersionedModel.Model.Basic

/-!
# Snapshots

A snapshot gives the values of the fields that take part, nested models included as maps.
`Model.snapshot?` is taken under given settings, which it hands on to nested models together with
the model's own; it fails at the first field, depth first, that has no value, unless there is a
value to fill in. `Model.state` is taken under no settings and fills in null; nested models are
asked for their state in turn. `Model.defaultState` gives the defaults of all fields, whether they
take part or not.

All three follow the schema. Their equations (`Model.state_eq`, `Model.snapshot?_eq`,
`Model.defaultState_eq`) say what they are in terms of the nested models.
-/

namespace VersionedModel

namespace Model

/-- The state of a model by its schema. -/
def stateBy (w : Workspace) : Schema → Model → State :=
  Schema.fold fun _ fields m =>
    .ofList <| (fields.filter fun e => m.admits w ∅ e.1).map fun e =>
      (e.1.name, match m.readPrimary e.1 e.1.name, e.2 with
        | .value v, _ => v
        | .model n, some state => (state n).toValue
        | _, _ => .null)

/-- The snapshot under no settings, with null for fields that have no value. -/
def state (w : Workspace) (m : Model) : State :=
  stateBy w m.schema m

/-- What stands in for the value of a field that has none. -/
def fillIn (fill : Option Value) (p : Primary (Component Schema)) : Except Error Value :=
  match fill with
  | some v => .ok v
  | none => .error (.missingValue p.name p.target.kindName)

/-- The snapshot of a model by its schema. -/
def snapshotBy (w : Workspace) (fill : Option Value) :
    Schema → Model → Settings → Except Error State :=
  Schema.fold fun _ fields m call => do
    let pairs ← (fields.filter fun e => m.admits w call e.1).mapM fun e => do
      let v ← match m.readPrimary e.1 e.1.name, e.2 with
        | .value v, _ => .ok v
        | .model n, some snapshot => State.toValue <$> snapshot n (call.overlay m.settings)
        | _, _ => fillIn fill e.1
      return (e.1.name, v)
    return .ofList pairs

/-- The snapshot under given settings. A field that has no value is filled in, or an error if
there is nothing to fill in. -/
def snapshot? (w : Workspace) (m : Model) (fill : Option Value) (call : Settings) :
    Except Error State :=
  snapshotBy w fill m.schema m call

/-- The defaults of all fields, by a schema. -/
def defaultStateBy : Schema → Dict Value → State :=
  Schema.fold fun _ fields defaults =>
    .ofList <| fields.filterMap fun e =>
      match e.2 with
      | some state => some (e.1.name, (state ∅).toValue)
      | none => ((defaults.get? e.1.name).or e.1.target.default).map fun v => (e.1.name, v)

/-- The defaults of all fields that have one; nested models give theirs as maps. -/
def defaultState (m : Model) : State :=
  defaultStateBy m.schema m.defaults

/-! ### Reading values -/

/-- What a field gives, as a value: a nested model gives its state. -/
def valueOf (w : Workspace) : Read → Option Value
  | .value v => some v
  | .missing => none
  | .model n => some (n.state w).toValue

/-- The value of a field, if it has one. -/
def get (w : Workspace) (m : Model) (name : String) : Except Error (Option Value) := do
  return valueOf w (← m.read name)

/-! ### Equations -/

theorem state_eq (w : Workspace) (m : Model) :
    m.state w = .ofList ((m.schema.primaries.filter (m.admits w ∅)).map fun p =>
      (p.name, (valueOf w (m.readPrimary p p.name)).getD .null)) := by
  rw [state, stateBy, Schema.fold_eq]
  simp only [List.filter_map, List.map_map, Function.comp_def]
  congr 1
  refine List.map_congr_left fun p _ => ?_
  rw [readPrimary, Component.schema?]
  cases p.target.kind with
  | model s => rfl
  | leaf k =>
    cases h : (Storage.stored? m.slots p.slot).or (m.defaultFor p p.name) <;> simp [valueOf]

theorem snapshot?_eq (w : Workspace) (m : Model) (fill : Option Value) (call : Settings) :
    m.snapshot? w fill call = (do
      let pairs ← (m.schema.primaries.filter (m.admits w call)).mapM fun p => do
        let v ← match m.readPrimary p p.name with
          | .value v => .ok v
          | .model n => State.toValue <$> n.snapshot? w fill (call.overlay m.settings)
          | .missing => fillIn fill p
        return (p.name, v)
      return .ofList pairs) := by
  rw [snapshot?, snapshotBy, Schema.fold_eq]
  simp only [List.filter_map, List.mapM_map, Function.comp_def]
  congr 1
  congr 1
  funext p
  rw [readPrimary, Component.schema?]
  cases p.target.kind with
  | model s => rfl
  | leaf k =>
    cases h : (Storage.stored? m.slots p.slot).or (m.defaultFor p p.name) <;> simp

theorem defaultState_eq (m : Model) :
    m.defaultState = .ofList (m.schema.primaries.filterMap fun p =>
      match p.target.schema? with
      | some s => some (p.name, (new s).defaultState.toValue)
      | none => (m.defaultFor p p.name).map fun v => (p.name, v)) := by
  rw [defaultState, defaultStateBy, Schema.fold_eq]
  simp only [List.filterMap_map, Function.comp_def]
  congr 2
  funext p
  cases p.target.schema? with
  | some s => rfl
  | none => simp [defaultFor]

end Model

end VersionedModel
