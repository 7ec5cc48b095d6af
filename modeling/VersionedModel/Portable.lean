import VersionedModel.Error
import VersionedModel.Json.Written
import VersionedModel.Value.Json

/-!
# Portable data

A type is `Portable` if its data has a JSON form. Through that form data becomes a value
(`Value.ofData`) and a value becomes data again (`Value.toData`). A record's form is an object with
one member for each field; it is also read from a sequence with exactly its fields in order, and
members that are no fields are passed over.
-/

namespace VersionedModel

/-- Types whose data has a JSON form. -/
class Portable (α : Type) where
  /-- The member names of a record; none for data that is no record. -/
  fields : List String
  /-- The JSON form of data, if it has one. -/
  toJson : α → Except EncodeError Json
  /-- The data that a JSON tree is the form of. Objects may have their members in any order and
  repeat keys. -/
  ofJson? : Json → Option α

namespace Portable

variable {α : Type}

/-- Data from the text of its JSON form. -/
def read? [Portable α] (text : String) : Option α := do
  let w ← Json.Written.parse text
  let j ← if (fields α).isEmpty then w.tree? else w.record? (fields α)
  ofJson? j

/-- The natural number below a bound that the tree is. -/
def natBelow? (bound : Nat) : Json → Option Nat
  | .integer n => if 0 ≤ n ∧ n < bound then some n.toNat else none
  | _ => none

/-- The number that the tree is, rounded if it is an integer. -/
def float? : Json → Option Binary64
  | .integer n => some (.ofInt n)
  | .float x => some x
  | _ => none

/-- The member of a record: `none` if the key is repeated, `some none` if it is absent. -/
def member? (members : List (String × Json)) (key : String) : Option (Option Json) :=
  match members.filter fun m => m.1 == key with
  | [] => some none
  | [m] => some (some m.2)
  | _ => none

/-- The member of a record that must be there once. -/
def required? (members : List (String × Json)) (key : String) : Option Json :=
  (member? members key).join

instance : Portable Int64 where
  fields := []
  toJson i := .ok (.integer i.toInt)
  ofJson?
    | .integer n => Json.int64? n
    | _ => none

instance : Portable UInt8 where
  fields := []
  toJson n := .ok (.integer n.toNat)
  ofJson? j := (natBelow? UInt8.size j).map UInt8.ofNat

instance : Portable UInt64 where
  fields := []
  toJson n := .ok (.integer n.toNat)
  ofJson? j := (natBelow? UInt64.size j).map UInt64.ofNat

instance : Portable Binary64 where
  fields := []
  toJson x := .ok (if x.isFinite then .float x else .null)
  ofJson? := float?

instance : Portable Bool where
  fields := []
  toJson b := .ok (.bool b)
  ofJson?
    | .bool b => some b
    | _ => none

instance : Portable String where
  fields := []
  toJson s := .ok (.string s)
  ofJson?
    | .string s => some s
    | _ => none

instance : Portable Json where
  fields := []
  toJson j := .ok j
  ofJson? j := some j.ordered

/-- Optional data; null is none. -/
instance [Portable α] : Portable (Option α) where
  fields := []
  toJson
    | none => .ok .null
    | some a => toJson a
  ofJson?
    | .null => some none
    | j => (ofJson? j).map some

/-- A sequence of data. -/
instance [Portable α] : Portable (List α) where
  fields := []
  toJson as := return .array (← as.mapM toJson)
  ofJson?
    | .array items => items.mapM ofJson?
    | _ => none

/-- Data by key. -/
instance [Portable α] : Portable (Dict α) where
  fields := []
  toJson d := return .object (← d.toList.mapM fun e => do return (e.1, ← toJson e.2))
  ofJson?
    | .object members =>
      (members.mapM fun m => (ofJson? m.2).map fun a => (m.1, a)).map Dict.ofList
    | _ => none

end Portable

/-! ### Records -/

/-- A point of the plane with integer coordinates. -/
structure Point where
  /-- The first coordinate. -/
  x : Int64
  /-- The second coordinate. -/
  y : Int64
  deriving DecidableEq, Repr

/-- An account. -/
structure Account where
  /-- Its number. -/
  id : Int64
  /-- Whose it is. -/
  owner : String
  /-- Labels. -/
  tags : List String
  /-- How far it may be drawn, if there is a limit. -/
  limit : Option Binary64
  deriving DecidableEq, Repr

/-- Truth values by pairs of integers, which have no JSON form: a key must be a text. -/
structure PairMap where
  /-- The entries. -/
  entries : List ((Int64 × Int64) × Bool)

namespace Portable

instance : Portable Point where
  fields := ["x", "y"]
  toJson p := .ok (.object [("x", .integer p.x.toInt), ("y", .integer p.y.toInt)])
  ofJson? j := do
    let (x, y) ← match j with
      | .array [x, y] => some (x, y)
      | .object members => do
        let x ← required? members "x"
        let y ← required? members "y"
        some (x, y)
      | _ => none
    return ⟨← ofJson? x, ← ofJson? y⟩

instance : Portable Account where
  fields := ["id", "owner", "tags", "limit"]
  toJson a := do
    return .object [("id", ← toJson a.id), ("limit", ← toJson a.limit), ("owner", .string a.owner),
      ("tags", ← toJson a.tags)]
  ofJson? j := do
    let (id, owner, tags, limit) ← match j with
      | .array [id, owner, tags, limit] => some (id, owner, tags, limit)
      | .object members => do
        let id ← required? members "id"
        let owner ← required? members "owner"
        let tags ← required? members "tags"
        let limit ← member? members "limit"
        some (id, owner, tags, limit.getD .null)
      | _ => none
    return ⟨← ofJson? id, ← ofJson? owner, ← ofJson? tags, ← ofJson? limit⟩

/-- The entries cannot be written, and nothing reads as them. -/
instance : Portable PairMap where
  fields := []
  toJson _ := .error .badKey
  ofJson? _ := none

end Portable

namespace Value

variable {α : Type}

/-- Data as a value. -/
def ofData [Portable α] (a : α) : Except Error Value :=
  match Portable.toJson a with
  | .ok j => .ok (ofJson j)
  | .error cause => .error (.encode .value cause)

/-- A value as data. -/
def toData (α : Type) [Portable α] (v : Value) : Except Error α :=
  match Portable.ofJson? v.toJson with
  | some a => .ok a
  | none => .error (.decode .value .mismatch)

end Value

end VersionedModel
