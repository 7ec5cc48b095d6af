import VersionedModel.Error
import VersionedModel.Listing

/-!
# States and payloads

A `State` is a snapshot of a model: values by name, in the order in which the names first came.
Two states are the same if they hold the same values under the same names in any order
(`State.same`). A `Payload` is decoded data on its way into a model: a sequence that goes by
position, or a mapping that goes by name.
-/

namespace VersionedModel

/-- Values by name, in the order in which the names first came. -/
structure State where
  /-- The pairs. -/
  toList : List (String × Value)
  deriving DecidableEq, Repr

namespace State

/-- The state without fields. -/
def empty : State := ⟨[]⟩

/-- Set a field; a field that is there keeps its position. -/
def insert (s : State) (name : String) (v : Value) : State :=
  ⟨Listing.put name v s.toList⟩

/-- Fields set one after the other. -/
def ofList (pairs : List (String × Value)) : State :=
  ⟨Listing.ofList pairs⟩

/-- The value of a field. -/
def get? (s : State) (name : String) : Option Value :=
  Listing.get? name s.toList

/-- Whether there is a field of a name. -/
def contains (s : State) (name : String) : Bool :=
  (s.get? name).isSome

/-- The number of fields. -/
def size (s : State) : Nat :=
  s.toList.length

/-- The names, in order. -/
def keys (s : State) : List String :=
  Listing.keys s.toList

/-- The values, in order. -/
def values (s : State) : List Value :=
  s.toList.map Prod.snd

/-- The fields by name. -/
def toDict (s : State) : Dict Value :=
  Dict.ofList s.toList

/-- The snapshot as a map. -/
def toValue (s : State) : Value :=
  .map s.toDict.toList

/-- The values in order, for encodings that go by position. -/
def sequence (s : State) : Value :=
  .array s.values

/-- Equality of data, in whatever order: as many fields, and each of them found on the other
side. -/
def same (s t : State) : Bool :=
  s.size == t.size && s.toList.all fun e => (t.get? e.1).any (e.2.same ·)

end State

/-- Decoded data on its way into a model. -/
inductive Payload where
  /-- Values by position. -/
  | sequence (values : List Value)
  /-- Values by name. -/
  | mapping (entries : List (String × Value))
  deriving DecidableEq, Repr

namespace Payload

/-- The payload that a value is; only arrays and maps are. -/
def ofValue : Value → Except Error Payload
  | .array values => .ok (.sequence values)
  | .map entries => .ok (.mapping entries)
  | v => .error (.unsupportedPayload v.kind)

/-- A snapshot as a payload. -/
def ofState (s : State) : Payload :=
  .mapping s.toList

end Payload

end VersionedModel
