import VersionedModel.Json.Basic
import VersionedModel.Text.Base64
import VersionedModel.Value.Compare

/-!
# Values as JSON

`Value.toJson` and `Value.ofJson` convert between values and JSON trees. JSON has neither bytes nor
infinities, so bytes become a text in base64 and a number that is not finite becomes null.
`Value.coerce` undoes the first loss, and the writing of a whole float as an integer, for a field
whose declared kind is known.
-/

namespace VersionedModel

namespace Value

mutual

/-- The JSON tree for a value. -/
def toJson : Value → Json
  | null => .null
  | bool b => .bool b
  | integer i => .integer i.toInt
  | float x => if x.isFinite then .float x else .null
  | string s => .string s
  | bytes bs => .string (Base64.encode bs)
  | array items => .array (itemsToJson items)
  | map entries => .object (entriesToJson entries)

/-- The JSON trees for a sequence. -/
def itemsToJson : List Value → List Json
  | [] => []
  | v :: vs => v.toJson :: itemsToJson vs

/-- The JSON members for a map. -/
def entriesToJson : List (String × Value) → List (String × Json)
  | [] => []
  | (k, v) :: es => (k, v.toJson) :: entriesToJson es

end

/-- The value for an integer of any size: a float if it does not fit into 64 bits with a sign. -/
def ofInt (n : Int) : Value :=
  match Json.int64? n with
  | some i => .integer i
  | none => .float (.ofInt n)

mutual

/-- The value for a JSON tree. -/
def ofJson : Json → Value
  | .null => null
  | .bool b => bool b
  | .integer n => ofInt n
  | .float x => float x
  | .string s => string s
  | .array items => array (itemsOfJson items)
  | .object members => map (entriesOfJson members)

/-- The values for a sequence. -/
def itemsOfJson : List Json → List Value
  | [] => []
  | j :: js => ofJson j :: itemsOfJson js

/-- The entries for an object's members. -/
def entriesOfJson : List (String × Json) → List (String × Value)
  | [] => []
  | (k, j) :: ms => (k, ofJson j) :: entriesOfJson ms

end

/-- Fit a value to a declared kind where JSON may have changed it: a text in base64 becomes bytes
and an integer becomes a float. Any other value stays as it is. -/
def coerce (v : Value) (kind : ValueKind) : Value :=
  match kind, v with
  | .bytes, .string s =>
    match Base64.decode s with
    | some bs => .bytes bs
    | none => .string s
  | .float, .integer i => .float (widen i)
  | _, v => v

end Value

end VersionedModel
