import VersionedModel.Model.Snapshot
import VersionedModel.Model.Update
import VersionedModel.Portable

/-!
# Models and portable data

Fields and whole models are read as data of a portable type, and data is written into them.
-/

namespace VersionedModel

namespace Model

variable {α : Type} [Portable α]

/-- The value of a field as data, if it has one. -/
def readAs (α : Type) [Portable α] (w : Workspace) (m : Model) (name : String) :
    Except Error (Option α) := do
  match ← m.get w name with
  | some v => return some (← v.toData α)
  | none => return none

/-- Write data into a field. -/
def writeAs (name : String) (a : α) : Update Unit :=
  match Value.ofData a with
  | .ok v => set name v
  | .error e => throw e

/-- The fields that take part, as data; they must have values. -/
def stateAs (α : Type) [Portable α] (w : Workspace) (m : Model) (call : Settings) :
    Except Error α := do
  (← m.snapshot? w none call).toValue.toData α

/-- Load data; fields that the model does not bind are left out. -/
def setStateFrom (a : α) : Update Unit :=
  match Value.ofData a with
  | .ok v => loadState v
  | .error e => throw e

/-- The state as JSON. -/
def stateJson (w : Workspace) (m : Model) : Json :=
  (m.state w).toValue.toJson

end Model

end VersionedModel
