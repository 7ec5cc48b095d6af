import VersionedModel.Value.Basic

/-!
# Components

A component declares one field: a value of some kind, or a nested model. It has an identity, so
that the same declaration can be told from an equal one, and it may say from which version to
which it takes part and which flags it wants. What a nested model is, the type parameter says.
-/

namespace VersionedModel

/-- The identity of a component. -/
abbrev ComponentId := Nat

/-- What a component stores. -/
inductive FieldKind (σ : Type) where
  /-- A single value of a kind. -/
  | leaf (kind : ValueKind)
  /-- A nested model. -/
  | model (schema : σ)

/-- The declaration of a field. -/
structure Component (σ : Type) where
  /-- Its identity. -/
  id : ComponentId
  /-- Its name, if it has one yet. -/
  name : Option String
  /-- What it stores. -/
  kind : FieldKind σ
  /-- The value of a field that was never set. -/
  default : Option Value
  /-- The first version that it takes part in. -/
  firstVersion : Option Int64
  /-- The last version that it takes part in. -/
  lastVersion : Option Int64
  /-- The flags that it wants. -/
  flags : List String
  /-- Whether a second stack may take a copy. -/
  copyable : Bool

namespace Component

variable {σ : Type}

/-- A component with nothing but what it stores. -/
def ofKind (kind : FieldKind σ) : Component σ where
  id := 0
  name := none
  kind := kind
  default := none
  firstVersion := none
  lastVersion := none
  flags := []
  copyable := true

/-- The nested model, if there is one. -/
def schema? (c : Component σ) : Option σ :=
  match c.kind with
  | .leaf _ => none
  | .model s => some s

/-- Whether the field holds a nested model. -/
def isModel (c : Component σ) : Bool :=
  c.schema?.isSome

end Component

end VersionedModel
