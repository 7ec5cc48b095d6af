import VersionedModel.Schema
import VersionedModel.Value.Json

/-!
# Shapes

The shape of a field is the kind of its value, or the shapes of the fields that a nested model has.
`Shape.restore` fits decoded data to a shape: it undoes, at every depth, what the way through JSON
did to values of a declared kind. Fields are found by name in a map and by position in an array;
what has no declared shape stays as it is.
-/

namespace VersionedModel

/-- The declared shape of a field. -/
inductive Shape where
  /-- A value of a kind. -/
  | leaf (kind : ValueKind)
  /-- A nested model with the given fields. -/
  | model (fields : List (String × Shape))
  deriving Inhabited, Repr

namespace Shape

/-- The shapes of the primaries of a schema, whether their components take part or not. -/
def fieldsOf (s : Schema) : List (String × Shape) :=
  s.fold (fun _ fields () => fields.map fun e =>
    (e.1.name, match e.1.target.kind, e.2 with
      | .leaf kind, _ => leaf kind
      | .model _, inner => model ((inner.map (· ())).getD []))) ()

/-- The shape of what a component stores. -/
def ofComponent (c : Component Schema) : Shape :=
  match c.kind with
  | .leaf kind => leaf kind
  | .model s => model (fieldsOf s)

theorem fieldsOf_eq (s : Schema) :
    fieldsOf s = s.primaries.map fun p => (p.name, ofComponent p.target) := by
  rw [fieldsOf, Schema.fold_eq, List.map_map]
  refine List.map_congr_left fun p _ => ?_
  simp only [Function.comp_apply, ofComponent, Component.schema?]
  cases p.target.kind <;> rfl

mutual

/-- The shape of a value; a map is taken for a nested model. -/
def ofValue : Value → Shape
  | .map entries => model (ofEntries entries)
  | v => leaf v.kind

/-- The shapes of the entries of a map. -/
def ofEntries : List (String × Value) → List (String × Shape)
  | [] => []
  | (k, v) :: es => (k, ofValue v) :: ofEntries es

end

/-! ### Restoring -/

/-- The shape of a field that goes by name. -/
def named? (fields : List (String × Shape)) (name : String) : Option Shape :=
  (fields.find? fun f => f.1 == name).map Prod.snd

mutual

/-- Fit a value to a shape. -/
def restore : Shape → Value → Value
  | leaf kind, v => v.coerce kind
  | model fields, .map entries => .map (restoreEntries fields entries)
  | model fields, .array items => .array (restoreItems fields items)
  | model _, v => v

/-- Fit values that go by position. -/
def restoreItems : List (String × Shape) → List Value → List Value
  | (_, shape) :: fields, v :: items => restore shape v :: restoreItems fields items
  | _, items => items

/-- Fit values that go by name. -/
def restoreEntries (fields : List (String × Shape)) :
    List (String × Value) → List (String × Value)
  | [] => []
  | (name, v) :: entries =>
    (name, match named? fields name with
      | some shape => restore shape v
      | none => v) :: restoreEntries fields entries

end

end Shape

end VersionedModel
