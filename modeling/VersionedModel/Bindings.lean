import VersionedModel.Error

/-!
# Binding tables

A table binds names, in order of declaration. A primary binding owns a slot of each model's
storage; an alias forwards to a primary of the same table. `Bindings.bind` numbers the slots in
order, and `Bindings.bindAlias` follows its target to a primary first, so that no alias ever points
at another.
-/

namespace VersionedModel

/-- A name of a table. -/
inductive Binding (γ : Type) where
  /-- A name that owns a slot. -/
  | primary (name : String) (slot : Nat) (target : γ)
  /-- A name that forwards to a primary. -/
  | aliasOf (name primary : String)

/-- The name that a binding binds. -/
def Binding.name {γ : Type} : Binding γ → String
  | .primary name .. => name
  | .aliasOf name _ => name

/-- A primary binding on its own. -/
structure Primary (γ : Type) where
  /-- Its name. -/
  name : String
  /-- The slot that it owns. -/
  slot : Nat
  /-- What it is bound to. -/
  target : γ

namespace Bindings

variable {γ : Type}

/-- The binding of a name. -/
def find? (table : List (Binding γ)) (name : String) : Option (Binding γ) :=
  table.find? fun b => b.name == name

/-- Whether a name is bound. -/
def contains (table : List (Binding γ)) (name : String) : Bool :=
  (find? table name).isSome

/-- The primaries, in order. -/
def primaries : List (Binding γ) → List (Primary γ)
  | [] => []
  | .primary name slot target :: rest => ⟨name, slot, target⟩ :: primaries rest
  | .aliasOf .. :: rest => primaries rest

/-- The number of slots. -/
def slotCount (table : List (Binding γ)) : Nat :=
  (primaries table).length

/-- The primary behind a name, through an alias if need be. -/
def resolve? (table : List (Binding γ)) (name : String) : Option (Primary γ) :=
  match find? table name with
  | some (.primary name slot target) => some ⟨name, slot, target⟩
  | some (.aliasOf _ primary) =>
    match find? table primary with
    | some (.primary name slot target) => some ⟨name, slot, target⟩
    | _ => none
  | none => none

/-- Bind a name to a new slot. -/
def bind (table : List (Binding γ)) (name : String) (target : γ) :
    Except Error (List (Binding γ)) :=
  if contains table name then .error (.duplicateField name)
  else .ok (table ++ [.primary name (slotCount table) target])

/-- Follow aliases from `current` to the name of a primary, in at most `steps` steps, for an alias
`name` whose declared target is `target`. A name met before closes a cycle. -/
def follow (table : List (Binding γ)) (name target : String) (visited : List String)
    (current : String) : Nat → Except Error String
  | 0 => .error (.aliasCycle name)
  | steps + 1 =>
    if visited.contains current then .error (.aliasCycle name)
    else
      match find? table current with
      | some (.primary primary ..) => .ok primary
      | some (.aliasOf _ next) => follow table name target (current :: visited) next steps
      | none => .error (.unknownAliasTarget name target)

/-- Bind a name to the primary behind another. A cycle or a missing target counts before the name
being taken. No chain of different aliases is longer than the table. -/
def bindAlias (table : List (Binding γ)) (name target : String) :
    Except Error (List (Binding γ)) := do
  let primary ← follow table name target [name] target (table.length + 1)
  if contains table name then throw (.duplicateField name)
  return table ++ [.aliasOf name primary]

end Bindings

end VersionedModel
