import VersionedModel.Value.Basic

/-!
# Settings

Open configuration: values by key. The library reads the version under `versionKey`; every other
entry passes through to whoever asks for it.
-/

namespace VersionedModel

/-- Configuration by key. -/
abbrev Settings := Dict Value

/-- The key under which settings carry a version. -/
def versionKey : String := "version"

namespace Settings

/-- The integer under a key, if the value there is one. -/
def integer? (s : Settings) (key : String) : Option Int64 :=
  (s.get? key).bind Value.integer?

/-- Whether the value under a key is there and switches a flag on. -/
def flag (s : Settings) (key : String) : Bool :=
  (s.get? key).any Value.isTruthy

/-- Settings as a value. -/
def toValue (s : Settings) : Value :=
  .map s.toList

/-- Equality of data. -/
def same (s t : Settings) : Bool :=
  Value.sameEntries s.toList t.toList

end Settings

end VersionedModel
