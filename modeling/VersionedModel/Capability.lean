import VersionedModel.Feature.Table

/-!
# Capabilities

A capability is a named bundle of features. Its disabled features are dropped, and features with a
prerequisite come after those without one. A registry holds capabilities by name; of the
capabilities that a codec asks for, those with fewer dependent features come first.
-/

namespace VersionedModel

/-- A named bundle of features. -/
structure Capability where
  /-- Its name. -/
  name : String
  /-- Its features. -/
  table : FeatureTable
  /-- Those of its features that have a prerequisite, in order of declaration. -/
  dependents : List Feature

namespace Capability

/-- Bundle features under a name. -/
def bundle (name : String) (features : List Feature) : Capability :=
  let enabled := features.filter fun f => !f.disabled
  let dependents := enabled.filter Feature.isDependent
  let independents := enabled.filter fun f => !f.isDependent
  ⟨name, FeatureTable.empty.insertAll (independents ++ dependents), dependents⟩

/-- The number of features that have a prerequisite. -/
def weight (c : Capability) : Nat :=
  c.dependents.length

/-- Put a capability in front of the first one that has at least its weight. -/
def place (c : Capability) : List Capability → List Capability
  | [] => [c]
  | d :: ds => if c.weight ≤ d.weight then c :: d :: ds else d :: place c ds

/-- Put capabilities in order of their weight; those of one weight stay in their order. -/
def inOrder (cs : List Capability) : List Capability :=
  cs.foldr place []

end Capability

/-- Capabilities by name. -/
abbrev Registry := Dict Capability

namespace Registry

/-- Add a capability under its name, which must be free. -/
def register (r : Registry) (c : Capability) : Except Error Registry :=
  if r.contains c.name then .error (.duplicateCapability c.name)
  else .ok (r.insert c.name c)

/-- The capabilities among some names, in the order in which they are composed; names that are not
registered are passed over. -/
def plugins (r : Registry) (names : List String) : List Capability :=
  Capability.inOrder (names.filterMap r.get?)

end Registry

end VersionedModel
