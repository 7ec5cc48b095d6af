import VersionedModel.Workspace.Basic

/-!
# Putting components on stacks

A component belongs to at most one stack. Entering a stack claims it: an unowned component is
marked, an owned one is copied if its declaration allows that, and otherwise refused. Leaving the
stack, whichever way, releases it. A component needs a valid name to enter, and is released again
if it has none.

What an action does to the workspace stays done when the action fails, except where the action
itself undoes it.
-/

namespace VersionedModel

/-- What can be turned into a member of a stack. -/
inductive Argument where
  /-- A component that exists, perhaps owned by another stack. -/
  | built (id : ComponentId)
  /-- A bare kind. -/
  | kind (kind : ValueKind)
  /-- A nested model. -/
  | model (schema : Schema)

/-- The identity of an existing component. -/
def Argument.identity? : Argument → Option ComponentId
  | .built id => some id
  | _ => none

namespace Workspace

/-- A change of a workspace that may fail; a failure does not take back what was changed. -/
abbrev Action := EStateM Error Workspace

/-- The outcome of a check. -/
def ensure : Except Error Unit → Action Unit
  | .ok () => pure ()
  | .error e => throw e

/-- A component and its mark. -/
def holding (id : ComponentId) : Action Holding := do
  match (← get).holdings[id]? with
  | some h => return h
  | none => throw (.unknownComponent id)

/-- Add a component under a new identity. -/
def declared (c : Component Schema) : Action ComponentId := do
  let (id, w) := (← get).declare c
  set w
  return id

/-- Make a component owned, or a copy of it if it is owned already. -/
def claim (id : ComponentId) : Action ComponentId := do
  let h ← holding id
  if !h.owned then
    modify fun w => w.mark id true
    return id
  if !h.component.copyable then
    throw (.alreadyOwned (h.component.name.getD h.component.kindName))
  let copy ← declared h.component
  modify fun w => w.mark copy true
  return copy

/-- See that a component has a valid name: its own, or else the offered one. -/
def settleName (id : ComponentId) (offered : Option String) : Action Unit := do
  let c := (← holding id).component
  match c.name, offered with
  | some name, _ => ensure (Path.validateName name)
  | none, some name => do
    ensure (Path.validateName name)
    modify fun w => w.rename id name
  | none, none => throw (.invalidName (.unnamed c.kindName))

/-- Make something a claimed component with a valid name. -/
def receive (arg : Argument) (offered : Option String) : Action ComponentId := do
  let id ← match arg with
    | .built id => pure id
    | .kind kind => declared (.ofKind (.leaf kind))
    | .model schema => declared (.ofKind (.model schema))
  let id ← claim id
  try
    settleName id offered
    return id
  catch e =>
    modify fun w => w.mark id false
    throw e

/-- Fail if there is no such stack. -/
def requireStack (s : StackId) : Action Unit := do
  if ((← get).stack? s).isNone then throw (.unknownStack s)

/-- Admit something to a stack, in front of the member at an index, or at the end. -/
def insert (s : StackId) (index : Nat) (arg : Argument) : Action ComponentId := do
  requireStack s
  let id ← receive arg none
  modify fun w =>
    let ids := w.memberIds s
    w.setMembers s (ids.take index ++ id :: ids.drop index)
  return id

/-- Admit something to a stack, at the end; it takes the offered name if it has none. -/
def add (s : StackId) (arg : Argument) (offered : Option String) : Action ComponentId := do
  requireStack s
  let id ← receive arg offered
  modify fun w => w.setMembers s (w.memberIds s ++ [id])
  return id

/-- Admit something that has a name to a stack, at the end. -/
def push (s : StackId) (arg : Argument) : Action ComponentId :=
  add s arg none

/-- Take the member at an index off a stack. -/
def pop (w : Workspace) (s : StackId) (index : Nat) : Option ComponentId × Workspace :=
  let ids := w.memberIds s
  match ids[index]? with
  | some id => (some id, (w.setMembers s (ids.eraseIdx index)).mark id false)
  | none => (none, w)

/-- Take the last member off a stack. -/
def popLast (w : Workspace) (s : StackId) : Option ComponentId × Workspace :=
  w.pop s ((w.memberIds s).length - 1)

/-- Whether a component is a member of a stack. -/
def isMember (w : Workspace) (s : StackId) (id : ComponentId) : Bool :=
  (w.memberIds s).contains id

/-- Take a component off a stack, if it is a member. -/
def discard (w : Workspace) (s : StackId) (id : ComponentId) : Bool × Workspace :=
  if w.isMember s id then
    (true, (w.setMembers s ((w.memberIds s).erase id)).mark id false)
  else (false, w)

/-- Take all members off a stack. -/
def clear (w : Workspace) (s : StackId) : Workspace :=
  (w.setMembers s []).release (w.memberIds s)

/-- The member at an index, if it takes part under given settings. -/
def memberAt? (w : Workspace) (s : StackId) (index : Nat) (settings : Settings) :
    Option (Component Schema) := do
  let c ← w.component? (← (w.memberIds s)[index]?)
  if w.passes s settings c then some c else none

end Workspace

end VersionedModel
