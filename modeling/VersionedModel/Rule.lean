import VersionedModel.Schema

/-!
# Applicability

A rule decides whether a component takes part under given settings. The usual one is a range of
versions; rules on flags, rules that let everything pass and conjunctions plug in beside it.
-/

namespace VersionedModel

/-- Decides whether a component takes part under given settings. -/
abbrev Rule := Component Schema → Settings → Bool

/-- Where a version is read from and what it is taken for if it is not there. -/
structure VersionRange where
  /-- The key of the settings that carries the version. -/
  field : String
  /-- The version of settings that carry none. -/
  fallback : Int64

namespace VersionRange

/-- The version under `versionKey`, and the latest of all without one. -/
def usual : VersionRange := ⟨versionKey, Int64.maxValue⟩

/-- The version that settings ask for. -/
def version (r : VersionRange) (s : Settings) : Int64 :=
  (Settings.integer? s r.field).getD r.fallback

/-- Whether a version lies between two bounds, both of which count; a missing bound admits
everything on its side. -/
def within (first last : Option Int64) (v : Int64) : Bool :=
  decide (first.getD Int64.minValue ≤ v) && decide (v ≤ last.getD Int64.maxValue)

end VersionRange

namespace Rule

/-- The component's versions include the one that the settings ask for. -/
def version (r : VersionRange) : Rule := fun c s =>
  VersionRange.within c.firstVersion c.lastVersion (r.version s)

/-- Every component takes part. -/
def always : Rule := fun _ _ => true

/-- Every flag that the component wants is switched on. -/
def flags : Rule := fun c s => c.flags.all (Settings.flag s)

/-- Every one of several rules is met. -/
def all (rules : List Rule) : Rule := fun c s => rules.all fun r => r c s

/-- The component has another name than the given one. -/
def notNamed (name : String) : Rule := fun c _ => c.name != some name

end Rule

end VersionedModel
