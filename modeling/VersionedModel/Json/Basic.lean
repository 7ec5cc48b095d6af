import VersionedModel.Binary64.Rounding
import VersionedModel.Dict

/-!
# JSON trees

`Json` is the data that a JSON text describes. Integers and floating-point numbers are kept apart.
An object's members are in increasing order of their keys, with no key twice, once `Json.ordered`
has been applied; before that they stand as they were written.
-/

namespace VersionedModel

/-- A JSON tree. -/
inductive Json where
  /-- The null value. -/
  | null
  /-- A truth value. -/
  | bool (b : Bool)
  /-- A number written without fraction and exponent. -/
  | integer (n : Int)
  /-- Any other number. -/
  | float (x : Binary64)
  /-- A text. -/
  | string (s : String)
  /-- A sequence. -/
  | array (items : List Json)
  /-- Members by key. -/
  | object (members : List (String × Json))
  deriving Inhabited, Repr

namespace Json

/-- The signed integer of 64 bits that an integer is, if it is in range. -/
def int64? (n : Int) : Option Int64 :=
  if Int64.minValue.toInt ≤ n ∧ n ≤ Int64.maxValue.toInt then some (.ofInt n) else none

/-! ### Equality of data -/

mutual

/-- Equality of data: integers and floats differ, floats are compared on the number line. -/
def same : Json → Json → Bool
  | null, null => true
  | bool a, bool b => a == b
  | integer a, integer b => a == b
  | float a, float b => a.same b
  | string a, string b => a == b
  | array a, array b => sameItems a b
  | object a, object b => sameMembers a b
  | _, _ => false

/-- Equality of data, item by item. -/
def sameItems : List Json → List Json → Bool
  | [], [] => true
  | a :: as, b :: bs => a.same b && sameItems as bs
  | _, _ => false

/-- Equality of data, member by member. -/
def sameMembers : List (String × Json) → List (String × Json) → Bool
  | [], [] => true
  | (j, a) :: as, (k, b) :: bs => j == k && a.same b && sameMembers as bs
  | _, _ => false

end

/-! ### Ordered keys -/

mutual

/-- Put the members of every object in order; of members with one key the last counts. -/
def ordered : Json → Json
  | array items => array (orderedItems items)
  | object members => object (Entries.ofList (orderedMembers members))
  | j => j

/-- Put the members of every object in a sequence in order. -/
def orderedItems : List Json → List Json
  | [] => []
  | j :: js => j.ordered :: orderedItems js

/-- Put the members of every object among the values in order. -/
def orderedMembers : List (String × Json) → List (String × Json)
  | [] => []
  | (k, j) :: ms => (k, j.ordered) :: orderedMembers ms

end

/-! ### Nesting -/

mutual

/-- How deep sequences and objects are nested. -/
def depth : Json → Nat
  | array items => depthItems items + 1
  | object members => depthMembers members + 1
  | _ => 0

/-- The greatest depth in a sequence. -/
def depthItems : List Json → Nat
  | [] => 0
  | j :: js => max j.depth (depthItems js)

/-- The greatest depth among the values. -/
def depthMembers : List (String × Json) → Nat
  | [] => 0
  | (_, j) :: ms => max j.depth (depthMembers ms)

end

end Json

end VersionedModel
