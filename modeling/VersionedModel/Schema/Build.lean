import VersionedModel.Workspace.Stacking

/-!
# Compiling schemas

A schema is compiled from declarations (`Schema.build`), from what a stack matches
(`Schema.ofStack`), or from loose components (`Schema.ofComponents`). Declaring a component that
was declared before makes the second name an alias of the first, and so does declaring one under a
name other than its own. A compilation that fails destroys the stack it made.
-/

namespace VersionedModel

/-- A member of a schema as declared. -/
inductive Member where
  /-- An attribute that a component backs. -/
  | field (name : String) (arg : Argument)
  /-- Another name for an attribute. -/
  | aliasOf (name target : String)

/-- The declaration of a schema. -/
structure Declaration where
  /-- The schema's name. -/
  name : String
  /-- Its settings. -/
  settings : Settings
  /-- The rule of its stack. -/
  rule : Rule
  /-- Its members, in order. -/
  members : List Member

namespace Schema

open Workspace (Action)

/-- How far a compilation has come. -/
structure Draft where
  /-- The names bound so far. -/
  bindings : List (Binding (Component Schema))
  /-- The existing components declared so far, with the primaries that they became. -/
  seen : List (ComponentId × String)

/-- The value of a step of a compilation. -/
def step {α : Type} : Except Error α → Action α
  | .ok a => pure a
  | .error e => throw e

/-- Compile a field whose component was not declared before. -/
def compileFresh (stack : StackId) (d : Draft) (name : String) (arg : Argument) :
    Action Draft := do
  let id ← Workspace.add stack arg (some name)
  let c := (← Workspace.holding id).component
  let primary := c.name.getD name
  let bound ← step (Bindings.bind d.bindings primary c)
  let bound ← if primary = name then pure bound else step (Bindings.bindAlias bound name primary)
  let seen := match arg.identity? with
    | some shared => d.seen ++ [(shared, primary)]
    | none => d.seen
  return ⟨bound, seen⟩

/-- Compile one member. -/
def compileMember (stack : StackId) (d : Draft) : Member → Action Draft
  | .field name arg => do
    Workspace.ensure (Path.validateName name)
    match d.seen.find? fun e => some e.1 == arg.identity? with
    | some (_, primary) =>
      return { d with bindings := ← step (Bindings.bindAlias d.bindings name primary) }
    | none => compileFresh stack d name arg
  | .aliasOf name target => do
    Workspace.ensure (Path.validateName name)
    return { d with bindings := ← step (Bindings.bindAlias d.bindings name target) }

/-- Make a stack for an action, and destroy it if the action fails. -/
def withStack {α : Type} (rule : Rule) (action : StackId → Action α) : Action α := do
  let (stack, w) := (← get).openStack rule
  set w
  try
    action stack
  catch e =>
    modify fun w => w.destroy stack
    throw e

/-- Compile a declaration. -/
def build (d : Declaration) : Action Schema :=
  withStack d.rule fun stack => do
    let draft ← d.members.foldlM (compileMember stack) ⟨[], []⟩
    return mk d.name d.settings stack draft.bindings

/-- The schema without fields. -/
def empty (name : String) : Action Schema :=
  withStack (.version .usual) fun stack => return mk name ∅ stack []

/-- Bind named components, one after the other. -/
def bindAll (cs : List (String × Component Schema)) :
    Except Error (List (Binding (Component Schema))) :=
  cs.foldlM (fun table e => Bindings.bind table e.1 e.2) []

/-- Compile a schema from what a stack matches under its settings. The stack keeps its members. -/
def ofStack (name : String) (stack : StackId) (settings : Settings) : Action Schema := do
  let bindings ← step (bindAll ((← get).matching stack settings))
  return mk name settings stack bindings

/-- Put named components on a new stack and compile it. -/
def ofComponents (name : String) (args : List Argument) (settings : Settings) : Action Schema :=
  withStack (.version .usual) fun stack => do
    for arg in args do
      let _ ← Workspace.push stack arg
    ofStack name stack settings

/-- The components that take part under the schema's settings overlaid by others. -/
def matching (w : Workspace) (s : Schema) (settings : Settings) :
    List (String × Component Schema) :=
  w.matching s.stack (s.settings.overlay settings)

end Schema

end VersionedModel
