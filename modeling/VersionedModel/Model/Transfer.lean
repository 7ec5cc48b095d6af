import VersionedModel.Codec.Basic
import VersionedModel.Model.Snapshot
import VersionedModel.Model.Update

/-!
# Dumping and loading models

A model is dumped as the payload of its snapshot, and loads the raw data of a payload. Both go
through the serializer that a target gives for the model under its effective settings.
-/

namespace VersionedModel

namespace Model

/-- What a codec is told about a model that is called with some settings. -/
def context (w : Workspace) (m : Model) (call : Settings) : ModelContext where
  name := m.name
  components := m.suitable w call
  defaults := m.defaults

/-- The serializer that a target gives for a model. -/
def serializerFor (w : Workspace) (m : Model) (t : Target) (call : Settings) :
    Except Error Serializer :=
  t.resolve (m.context w call) (m.effective call)

/-- The payload of a model's snapshot; fields that take part must have values. -/
def dump (w : Workspace) (m : Model) (t : Target) (call : Settings) :
    Except Error (List UInt8) := do
  let serializer ← m.serializerFor w t call
  let state ← m.snapshot? w none call
  serializer.encode state.toValue (m.effective call)

/-- The raw data in a payload for a model. -/
def rawOf (w : Workspace) (m : Model) (t : Target) (payload : List UInt8) (call : Settings) :
    Except Error Value := do
  let serializer ← m.serializerFor w t call
  serializer.decode payload (m.effective call)

/-- Load a payload. -/
def load (w : Workspace) (t : Target) (payload : List UInt8) (call : Settings) : Update Unit :=
  fun m =>
    match m.rawOf w t payload call with
    | .ok raw => loadState raw m
    | .error e => .error e m

end Model

end VersionedModel
