import VersionedModel.Binary64.Basic
import VersionedModel.Dict

/-!
# Values

`Value` is the tree-shaped data that fields hold. A map's entries are in increasing order of their
keys (`Value.Ordered`), as every operation of the library leaves them. `Value.same` is equality of
data: it follows the tree and compares floating-point numbers on the number line, so it is finer
than `=` on the zeros and coarser on not-a-number.
-/

namespace VersionedModel

/-- A dynamically typed value. -/
inductive Value where
  /-- The absent value, which is not the same as no value. -/
  | null
  /-- A truth value. -/
  | bool (b : Bool)
  /-- A signed integer of 64 bits. -/
  | integer (i : Int64)
  /-- A floating-point number. -/
  | float (x : Binary64)
  /-- A text. -/
  | string (s : String)
  /-- Binary data. -/
  | bytes (bs : List UInt8)
  /-- A sequence of values. -/
  | array (items : List Value)
  /-- Values by key. -/
  | map (entries : List (String × Value))
  deriving Inhabited, Repr

/-- The kinds of values, with one that stands for all of them. -/
inductive ValueKind where
  /-- Every kind. -/
  | any
  /-- The absent value. -/
  | null
  /-- Truth values. -/
  | bool
  /-- Integers. -/
  | integer
  /-- Floating-point numbers. -/
  | float
  /-- Texts. -/
  | string
  /-- Binary data. -/
  | bytes
  /-- Sequences. -/
  | array
  /-- Values by key. -/
  | map
  deriving DecidableEq, Repr

namespace ValueKind

/-- All kinds, in order of declaration. -/
def all : List ValueKind :=
  [any, null, bool, integer, float, string, bytes, array, map]

/-- The name of a kind. -/
def name : ValueKind → String
  | any => "any"
  | null => "null"
  | bool => "bool"
  | integer => "integer"
  | float => "float"
  | string => "string"
  | bytes => "bytes"
  | array => "array"
  | map => "map"

/-- The kind with a name. -/
def ofName? (s : String) : Option ValueKind :=
  all.find? fun k => k.name == s

/-- Whether a value of kind `other` fits a field declared with kind `k`: `any` takes everything,
and everything takes the absent value. -/
def admits (k other : ValueKind) : Bool :=
  k == any || k == other || other == null

end ValueKind

namespace Value

/-- The kind of a value. -/
def kind : Value → ValueKind
  | null => .null
  | bool _ => .bool
  | integer _ => .integer
  | float _ => .float
  | string _ => .string
  | bytes _ => .bytes
  | array _ => .array
  | map _ => .map

/-- The integer that a value is. -/
def integer? : Value → Option Int64
  | integer i => some i
  | _ => none

/-- The text that a value is. -/
def string? : Value → Option String
  | string s => some s
  | _ => none

/-- Whether a value switches a flag on: all do but the absent value, `false`, zero and what is
empty. -/
def isTruthy : Value → Bool
  | null => false
  | bool b => b
  | integer i => !(i == 0)
  | float x => !x.isZero
  | string s => !s.isEmpty
  | bytes bs => !bs.isEmpty
  | array items => !items.isEmpty
  | map entries => !entries.isEmpty

/-! ### Equality of data -/

mutual

/-- Equality of data. -/
def same : Value → Value → Bool
  | null, null => true
  | bool a, bool b => a == b
  | integer a, integer b => a == b
  | float a, float b => a.same b
  | string a, string b => a == b
  | bytes a, bytes b => a == b
  | array a, array b => sameItems a b
  | map a, map b => sameEntries a b
  | _, _ => false

/-- Equality of data, item by item. -/
def sameItems : List Value → List Value → Bool
  | [], [] => true
  | a :: as, b :: bs => a.same b && sameItems as bs
  | _, _ => false

/-- Equality of data, entry by entry. -/
def sameEntries : List (String × Value) → List (String × Value) → Bool
  | [], [] => true
  | (j, a) :: as, (k, b) :: bs => j == k && a.same b && sameEntries as bs
  | _, _ => false

end

/-! ### Ordered keys -/

mutual

/-- Every map in the value has its entries in order. -/
def Ordered : Value → Prop
  | array items => ItemsOrdered items
  | map entries => Entries.Sorted entries ∧ EntriesOrdered entries
  | _ => True

/-- Every item is ordered. -/
def ItemsOrdered : List Value → Prop
  | [] => True
  | v :: vs => v.Ordered ∧ ItemsOrdered vs

/-- Every entry's value is ordered. -/
def EntriesOrdered : List (String × Value) → Prop
  | [] => True
  | (_, v) :: es => v.Ordered ∧ EntriesOrdered es

end

/-! ### Decidable identity -/

mutual

/-- Decides whether two values are one and the same. -/
def decEq : (a b : Value) → Decidable (a = b)
  | null, null => isTrue rfl
  | bool a, bool b => decidable_of_iff (a = b) (by simp)
  | integer a, integer b => decidable_of_iff (a = b) (by simp)
  | float a, float b => decidable_of_iff (a = b) (by simp)
  | string a, string b => decidable_of_iff (a = b) (by simp)
  | bytes a, bytes b => decidable_of_iff (a = b) (by simp)
  | array a, array b => @decidable_of_iff _ (a = b) (by simp) (decEqItems a b)
  | map a, map b => @decidable_of_iff _ (a = b) (by simp) (decEqEntries a b)
  | null, bool _ | null, integer _ | null, float _ | null, string _ | null, bytes _
  | null, array _ | null, map _ | bool _, null | bool _, integer _ | bool _, float _
  | bool _, string _ | bool _, bytes _ | bool _, array _ | bool _, map _ | integer _, null
  | integer _, bool _ | integer _, float _ | integer _, string _ | integer _, bytes _
  | integer _, array _ | integer _, map _ | float _, null | float _, bool _ | float _, integer _
  | float _, string _ | float _, bytes _ | float _, array _ | float _, map _ | string _, null
  | string _, bool _ | string _, integer _ | string _, float _ | string _, bytes _
  | string _, array _ | string _, map _ | bytes _, null | bytes _, bool _ | bytes _, integer _
  | bytes _, float _ | bytes _, string _ | bytes _, array _ | bytes _, map _ | array _, null
  | array _, bool _ | array _, integer _ | array _, float _ | array _, string _
  | array _, bytes _ | array _, map _ | map _, null | map _, bool _ | map _, integer _
  | map _, float _ | map _, string _ | map _, bytes _ | map _, array _ => isFalse nofun

/-- Decides whether two sequences are one and the same. -/
def decEqItems : (a b : List Value) → Decidable (a = b)
  | [], [] => isTrue rfl
  | [], _ :: _ | _ :: _, [] => isFalse nofun
  | a :: as, b :: bs =>
    match decEq a b, decEqItems as bs with
    | isTrue h, isTrue hs => isTrue (h ▸ hs ▸ rfl)
    | isFalse h, _ => isFalse fun e => h (List.cons.inj e).1
    | _, isFalse h => isFalse fun e => h (List.cons.inj e).2

/-- Decides whether two entry lists are one and the same. -/
def decEqEntries : (a b : List (String × Value)) → Decidable (a = b)
  | [], [] => isTrue rfl
  | [], _ :: _ | _ :: _, [] => isFalse nofun
  | (j, a) :: as, (k, b) :: bs =>
    if hk : j = k then
      match decEq a b, decEqEntries as bs with
      | isTrue h, isTrue hs => isTrue (hk ▸ h ▸ hs ▸ rfl)
      | isFalse h, _ => isFalse fun e => h (Prod.mk.inj (List.cons.inj e).1).2
      | _, isFalse h => isFalse fun e => h (List.cons.inj e).2
    else isFalse fun e => hk (Prod.mk.inj (List.cons.inj e).1).1

end

instance : DecidableEq Value := decEq

end Value

end VersionedModel
