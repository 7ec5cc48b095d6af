import VersionedModel.Error
import VersionedModel.Settings

/-!
# Features

A feature is a named piece of behaviour: a hook, which turns a value into another, or a constant,
which takes the place of any value. One with an operation that it goes before or after runs
whenever a codec performs that operation; any other is only looked up by its name. A feature may
need another one, its prerequisite.
-/

namespace VersionedModel

/-- Turns a value into another under given settings, or fails. -/
abbrev Hook := Value → Settings → Except Error Value

/-- What running a feature does. -/
inductive FeatureAction where
  /-- Run a hook. -/
  | hook (run : Hook)
  /-- Give a constant, whatever the value. -/
  | constant (v : Value)

/-- How a feature takes its place among others. -/
structure FeatureTraits where
  /-- Whether it is left out of every capability. -/
  disabled : Bool
  /-- Whether it takes the place of features with its name, rather than a place beside them. -/
  overriding : Bool
  /-- The operation that it goes before. -/
  before : Option String
  /-- The operation that it goes after. -/
  after : Option String
  /-- The name of its prerequisite. -/
  requires : Option String

/-- A named piece of behaviour. -/
structure Feature extends FeatureTraits where
  /-- Its name. -/
  name : String
  /-- What it does. -/
  action : FeatureAction

/-- A feature as declared. -/
structure FeatureDeclaration extends FeatureTraits where
  /-- Its name. -/
  name : String
  /-- Its hook, if one was given. -/
  hook : Option Hook
  /-- Its constant, if one was given. -/
  constant : Option Value

/-- The feature that was declared. It may not have both a hook and a constant; if it has neither,
it gives null. -/
def FeatureDeclaration.build (d : FeatureDeclaration) : Except Error Feature :=
  match d.hook, d.constant with
  | some _, some _ => .error (.featureConflict d.name)
  | some run, none => .ok ⟨d.toFeatureTraits, d.name, .hook run⟩
  | none, constant => .ok ⟨d.toFeatureTraits, d.name, .constant (constant.getD .null)⟩

namespace Feature

/-- A feature that gives a constant and is looked up by its name. -/
def constant (name : String) (v : Value) : Feature :=
  ⟨⟨false, false, none, none, none⟩, name, .constant v⟩

/-- Whether it runs when codecs perform some operation. -/
def isHook (f : Feature) : Bool :=
  f.before.isSome || f.after.isSome

/-- Whether it has a prerequisite. -/
def isDependent (f : Feature) : Bool :=
  f.requires.isSome

/-- Run a feature. -/
def run (f : Feature) : Hook := fun v settings =>
  match f.action with
  | .hook run => run v settings
  | .constant v => .ok v

/-- Run features one after the other, each on what the one before it gave. -/
def runAll : List Feature → Hook
  | [], v, _ => .ok v
  | f :: fs, v, settings => do runAll fs (← f.run v settings) settings

end Feature

end VersionedModel
