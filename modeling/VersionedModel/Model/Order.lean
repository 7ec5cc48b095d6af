import VersionedModel.Model.Snapshot
import VersionedModel.Value.Compare

/-!
# Order of models

Models are equal if their states are, and they are ordered as their states are. Two states are
compared field by field over the names that they share, which must stand in the same order on both
sides. If all shared fields are equal and one side has fields that the other lacks, the side that
lacks them is the greater one. States that both have fields of their own are not comparable.
-/

namespace VersionedModel

namespace State

/-- The names that another state has too, in order. -/
def sharedKeys (s t : State) : List String :=
  s.keys.filter t.contains

/-- The first difference among the values of some fields, in order. -/
def compareAt (s t : State) : List String → Option Ordering
  | [] => some .eq
  | name :: names => do
    match (← s.get? name).compare (← t.get? name) with
    | some .eq => compareAt s t names
    | unequal => unequal

/-- The order of two states. -/
def compare (s t : State) : Option Ordering :=
  let shared := s.sharedKeys t
  let leftExtra := decide (shared.length < s.size)
  let rightExtra := decide (shared.length < t.size)
  if t.sharedKeys s ≠ shared then none
  else if leftExtra && rightExtra then none
  else
    match s.compareAt t shared with
    | some .eq => some (if leftExtra then .lt else if rightExtra then .gt else .eq)
    | o => o

end State

namespace Model

/-- Equality of data. -/
def same (w : Workspace) (m n : Model) : Bool :=
  (m.state w).same (n.state w)

/-- The order of two models. -/
def compare (w : Workspace) (m n : Model) : Option Ordering :=
  (m.state w).compare (n.state w)

end Model

end VersionedModel
