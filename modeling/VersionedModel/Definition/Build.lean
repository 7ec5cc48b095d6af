import VersionedModel.Definition.Basic
import VersionedModel.Schema.Build

/-!
# Building and describing stacks

`StackDefinition.buildSchema` makes the components that a definition describes, puts them on a new
stack and compiles it. `StackDefinition.ofSchema` goes the other way: it describes every member of
a schema's stack, whether it takes part or not. Rules are no data, so what is described always has
the version rule.
-/

namespace VersionedModel

open Workspace (Action)

/-! ### Building -/

/-- The rule with a name. -/
def RuleName.rule : RuleName → Rule
  | .version => .version .usual
  | .flags => .flags
  | .always => .always

/-- A component that stores something, on given terms. -/
def Terms.component (t : Terms) (kind : FieldKind Schema) : Component Schema :=
  { Component.ofKind kind with
    name := some t.name
    firstVersion := t.since
    lastVersion := t.upTo
    flags := t.flags }

mutual

/-- Make the component that a definition describes. -/
def ComponentDefinition.build : ComponentDefinition → Action ComponentId
  | .leaf kind t default exclusive =>
    Workspace.declared { t.component (.leaf kind.val) with
      default := default.map Value.ofJson
      copyable := !exclusive }
  | .model t model => do
    let schema ← model.buildSchema
    Workspace.declared (t.component (.model schema))

/-- Make components and push them on a stack. -/
def ComponentDefinition.pushAll (stack : StackId) : List ComponentDefinition → Action Unit
  | [] => pure ()
  | c :: cs => do
    let id ← c.build
    let _ ← Workspace.push stack (.built id)
    ComponentDefinition.pushAll stack cs

/-- Make the stack that a definition describes and compile what it matches under the definition's
settings. -/
def StackDefinition.buildSchema : StackDefinition → Action Schema
  | .mk name settings rule components =>
    Schema.withStack rule.rule fun stack => do
      ComponentDefinition.pushAll stack components
      Schema.ofStack name stack (settings.map Value.ofJson)

end

/-- Make the stack that a definition describes. -/
def StackDefinition.buildStack (d : StackDefinition) : Action StackId :=
  Schema.withStack d.rule.rule fun stack => do
    ComponentDefinition.pushAll stack d.components
    return stack

/-! ### Describing -/

/-- The terms of a component. -/
def Component.terms (c : Component Schema) : Except Error Terms :=
  match c.name with
  | none => .error (.unnamedExport c.kindName)
  | some name => .ok ⟨name, c.firstVersion, c.lastVersion, c.flags⟩

/-- Describe a component and what it nests, at most `levels` levels deep. -/
def ComponentDefinition.describe (w : Workspace) (levels : Nat) (c : Component Schema) :
    Except Error ComponentDefinition := do
  let t ← c.terms
  match c.kind with
  | .leaf kind => return .leaf (.ofKind kind) t (c.default.map Value.toJson) (!c.copyable)
  | .model s =>
    match levels with
    | 0 => throw (.circularStack s.stack)
    | levels + 1 =>
      let components ← (w.members s.stack).mapM (ComponentDefinition.describe w levels)
      return .model t (.mk s.name (s.settings.map Value.toJson) .version components)

/-- Describe a component. Nesting that passes no stack twice is no deeper than there are stacks. -/
def ComponentDefinition.ofComponent (w : Workspace) (c : Component Schema) :
    Except Error ComponentDefinition :=
  ComponentDefinition.describe w w.stackTable.length c

/-- Describe every member of a stack. -/
def StackDefinition.ofStack (w : Workspace) (name : String) (stack : StackId)
    (settings : Settings) : Except Error StackDefinition := do
  let components ← (w.members stack).mapM (ComponentDefinition.ofComponent w)
  return .mk name (settings.map Value.toJson) .version components

/-- Describe every member of a schema's stack. -/
def StackDefinition.ofSchema (w : Workspace) (s : Schema) : Except Error StackDefinition :=
  StackDefinition.ofStack w s.name s.stack s.settings

end VersionedModel
