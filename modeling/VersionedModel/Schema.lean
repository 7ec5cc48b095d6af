import VersionedModel.Bindings
import VersionedModel.Component
import VersionedModel.Settings

/-!
# Schemas

A schema is the compiled description of a model: a name, settings, the stack that its components
belong to, and a binding table. Components of nested models hold their schemas in turn, so a
schema is a finite tree. `Schema.fold` follows that tree (`Schema.fold_eq`), and whatever looks at
nested models at every depth is a fold.
-/

namespace VersionedModel

/-- The identity of a stack. -/
abbrev StackId := Nat

/-- The compiled description of a model. -/
inductive Schema where
  /-- A schema from its parts. -/
  | mk (name : String) (settings : Settings) (stack : StackId)
      (bindings : List (Binding (Component Schema)))

namespace Schema

/-- The name. -/
def name : Schema → String
  | mk name _ _ _ => name

/-- The settings under which it was compiled. -/
def settings : Schema → Settings
  | mk _ settings _ _ => settings

/-- The stack of its components. -/
def stack : Schema → StackId
  | mk _ _ stack _ => stack

/-- The binding table. -/
def bindings : Schema → List (Binding (Component Schema))
  | mk _ _ _ bindings => bindings

/-- The primary bindings, in order. -/
def primaries (s : Schema) : List (Primary (Component Schema)) :=
  Bindings.primaries s.bindings

/-- The primary behind a name. -/
def resolve? (s : Schema) (name : String) : Option (Primary (Component Schema)) :=
  Bindings.resolve? s.bindings name

/-- Whether a name is bound. -/
def binds (s : Schema) (name : String) : Bool :=
  Bindings.contains s.bindings name

/-! ### Folding -/

variable {α β : Type}

mutual

/-- Fold over a schema: a function of an argument, from the primaries, each with the function for
the schema that it nests, if it nests one. Nested schemas are only looked into as far as these
functions are applied. -/
def fold (f : Schema → List (Primary (Component Schema) × Option (α → β)) → α → β) :
    Schema → α → β
  | mk name settings stack bindings, a =>
    f (mk name settings stack bindings) (foldBindings f bindings) a

/-- The primaries of a table, each with the function for the schema that it nests. -/
def foldBindings (f : Schema → List (Primary (Component Schema) × Option (α → β)) → α → β) :
    List (Binding (Component Schema)) → List (Primary (Component Schema) × Option (α → β))
  | [] => []
  | .aliasOf .. :: rest => foldBindings f rest
  | .primary field slot ⟨id, name, .leaf kind, default, first, last, flags, copyable⟩ :: rest =>
    (⟨field, slot, ⟨id, name, .leaf kind, default, first, last, flags, copyable⟩⟩, none) ::
      foldBindings f rest
  | .primary field slot ⟨id, name, .model s, default, first, last, flags, copyable⟩ :: rest =>
    (⟨field, slot, ⟨id, name, .model s, default, first, last, flags, copyable⟩⟩,
      some fun a => s.fold f a) :: foldBindings f rest

end

theorem foldBindings_eq
    (f : Schema → List (Primary (Component Schema) × Option (α → β)) → α → β)
    (bindings : List (Binding (Component Schema))) :
    foldBindings f bindings =
      (Bindings.primaries bindings).map fun p => (p, p.target.schema?.map (fold f)) := by
  induction bindings with
  | nil => simp [foldBindings, Bindings.primaries]
  | cons b rest ih =>
    match b with
    | .aliasOf .. => simp [foldBindings, Bindings.primaries, ih]
    | .primary _ _ ⟨_, _, .leaf _, _, _, _, _, _⟩ =>
      simp [foldBindings, Bindings.primaries, ih, Component.schema?]
    | .primary _ _ ⟨_, _, .model _, _, _, _, _, _⟩ =>
      simp [foldBindings, Bindings.primaries, ih, Component.schema?]

theorem fold_eq (f : Schema → List (Primary (Component Schema) × Option (α → β)) → α → β)
    (s : Schema) :
    s.fold f = f s (s.primaries.map fun p => (p, p.target.schema?.map (fold f))) := by
  cases s
  funext a
  rw [fold, foldBindings_eq]
  rfl

end Schema

namespace Component

/-- What a component stores, in a word: the name of its value kind or of its schema. -/
def kindName (c : Component Schema) : String :=
  match c.kind with
  | .leaf kind => kind.name
  | .model s => s.name

end Component

end VersionedModel
