import VersionedModel.Binary64.Rounding
import VersionedModel.Value.Basic

/-!
# Order of values

`Value.compare` orders values of compatible kinds. Integers and floating-point numbers are
compared on the number line, an integer being rounded first when the other side is a float;
sequences are compared item by item, and a proper beginning comes first. Values of unrelated kinds
are unordered, and so are maps unless they are equal.
-/

namespace VersionedModel

namespace Value

/-- An integer as a floating-point number. -/
def widen (i : Int64) : Binary64 :=
  .ofInt i.toInt

mutual

/-- The order of two values, if they have one. -/
def compare : Value → Value → Option Ordering
  | null, null => some .eq
  | bool a, bool b => some (Ord.compare a b)
  | integer a, integer b => some (Ord.compare a b)
  | float a, float b => a.compare b
  | integer a, float b => (widen a).compare b
  | float a, integer b => a.compare (widen b)
  | string a, string b => some (Ord.compare a b)
  | bytes a, bytes b => some (Ord.compare a b)
  | array a, array b => compareItems a b
  | map a, map b => if sameEntries a b then some .eq else none
  | _, _ => none

/-- The order of two sequences: that of the first items that differ, else that of the lengths. -/
def compareItems : List Value → List Value → Option Ordering
  | [], [] => some .eq
  | [], _ :: _ => some .lt
  | _ :: _, [] => some .gt
  | a :: as, b :: bs =>
    match a.compare b with
    | some .eq => compareItems as bs
    | other => other

end

end Value

end VersionedModel
