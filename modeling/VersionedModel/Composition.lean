import VersionedModel.Capability

/-!
# Compositions

A composition layers the features of the capabilities that a codec asks for, in order, into one
table. Every dependent feature must find its prerequisite among the features composed so far,
those of its own capability included.
-/

namespace VersionedModel

/-- The operation that turns a state into a payload. -/
def dumpOperation : String := "dump"

/-- The operation that turns a payload into a state. -/
def loadOperation : String := "load"

/-- The features of a codec. -/
structure Composition where
  /-- The codec's name. -/
  codec : String
  /-- The capabilities, in order. -/
  order : List Capability
  /-- Their features, in layers. -/
  table : FeatureTable

namespace Composition

/-- Check that features find their prerequisites in a table. -/
def checkPrerequisites (t : FeatureTable) : List Feature → Except Error Unit
  | [] => .ok ()
  | f :: fs =>
    match f.requires with
    | none => checkPrerequisites t fs
    | some required =>
      if t.contains required then checkPrerequisites t fs
      else .error (.missingPrerequisite f.name required)

/-- Layer the features of a capability onto a table. -/
def layer (t : FeatureTable) (c : Capability) : Except Error FeatureTable := do
  let t := t.insertAll c.table.features
  checkPrerequisites t c.dependents
  return t

/-- Compose the capabilities that a codec asks for by name. -/
def compose (r : Registry) (codec : String) (names : List String) : Except Error Composition := do
  let order := r.plugins names
  return ⟨codec, order, ← order.foldlM layer .empty⟩

/-- Run the feature of a name. -/
def call (c : Composition) (name : String) : Hook := fun v settings =>
  match c.table.get? name with
  | some f => f.run v settings
  | none => .error (.noFeature c.codec name)

/-- The features that go before an operation, in order. -/
def hooksBefore (c : Composition) (operation : String) : List Feature :=
  c.table.features.filter fun f => f.before == some operation

/-- The features that go after an operation, in order. -/
def hooksAfter (c : Composition) (operation : String) : List Feature :=
  c.table.features.filter fun f => f.after == some operation

/-- Run the features that go before an operation. -/
def applyBefore (c : Composition) (operation : String) : Hook :=
  Feature.runAll (c.hooksBefore operation)

/-- Run the features that go after an operation. -/
def applyAfter (c : Composition) (operation : String) : Hook :=
  Feature.runAll (c.hooksAfter operation)

end Composition

end VersionedModel
