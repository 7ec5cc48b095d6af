import VersionedModel.Model.Storage
import VersionedModel.Workspace.Basic

/-!
# Models

A model is an instance of a schema with a name, defaults and settings of its own. A nested model is
an instance of the schema that a field nests; it has that schema's name, and neither defaults nor
settings of its own.

Which fields take part is decided by the schema's stack under the model's effective settings:
those of the schema, overlaid by those of the call, overlaid by the model's own.
-/

namespace VersionedModel

/-- An instance of a schema. -/
structure Model where
  /-- The schema. -/
  schema : Schema
  /-- The name. -/
  name : String
  /-- The model's own values for fields that were never set, by name or alias. -/
  defaults : Dict Value
  /-- The model's own settings. -/
  settings : Settings
  /-- What is stored, slot by slot. -/
  slots : List Slot

/-- What a field gives when it is read. -/
inductive Read where
  /-- A stored value or a default. -/
  | value (v : Value)
  /-- The field was never set and has no default. -/
  | missing
  /-- The field is a nested model. -/
  | model (m : Model)

namespace Model

/-- An instance with a storage and nothing of its own. -/
def ofSlots (s : Schema) (slots : List Slot) : Model where
  schema := s
  name := s.name
  defaults := ∅
  settings := ∅
  slots := slots

/-- An instance that was never written. -/
def new (s : Schema) : Model :=
  ofSlots s s.fresh

/-! ### Fields that take part -/

/-- The settings that count when a model is called with some. -/
def effective (m : Model) (call : Settings) : Settings :=
  (m.schema.settings.overlay call).overlay m.settings

/-- The components that take part when a model is called with some settings, by name. -/
def suitable (w : Workspace) (m : Model) (call : Settings) : List (String × Component Schema) :=
  w.matching m.schema.stack (m.effective call)

/-- Whether a primary's component takes part. -/
def admits (w : Workspace) (m : Model) (call : Settings) (p : Primary (Component Schema)) : Bool :=
  (Listing.keys (m.suitable w call)).contains p.name

/-! ### Reading -/

/-- The default of a primary that is called by some name: the model's own for that name, or for
the primary's name, or else the component's. -/
def defaultFor (m : Model) (p : Primary (Component Schema)) (name : String) : Option Value :=
  ((m.defaults.get? name).or (m.defaults.get? p.name)).or p.target.default

/-- Read a primary that is called by some name. -/
def readPrimary (m : Model) (p : Primary (Component Schema)) (name : String) : Read :=
  match p.target.kind with
  | .model s => .model (ofSlots s (Storage.inner s m.slots p.slot))
  | .leaf _ =>
    match (Storage.stored? m.slots p.slot).or (m.defaultFor p name) with
    | some v => .value v
    | none => .missing

/-- Read a field by its name or an alias. -/
def read (m : Model) (name : String) : Except Error Read := do
  return m.readPrimary (← Storage.primary m.schema name) name

/-- The nested model in a field. -/
def nested (m : Model) (name : String) : Except Error Model := do
  match ← m.read name with
  | .model n => return n
  | _ => throw (.notAModel name)

/-- Read the field at the end of a chain of names. -/
def readAt (m : Model) : List String → Except Error Read
  | [] => throw (.invalidName .emptyPath)
  | [name] => m.read name
  | name :: rest => do (← m.nested name).readAt rest

/-- Every primary with what it gives, in order. -/
def reads (m : Model) : List (String × Read) :=
  m.schema.primaries.map fun p => (p.name, m.readPrimary p p.name)

end Model

end VersionedModel
