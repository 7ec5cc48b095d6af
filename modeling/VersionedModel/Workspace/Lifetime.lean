import VersionedModel.Workspace.Basic

/-!
# Lifetimes of stacks

A stack lives as long as something holds it: a schema compiled on it, or whoever was given it. A
schema is held by the models made of it and by the components whose nested models it describes,
and a component is held by the stack that it is a member of and by the schemas that bind it.
`Workspace.settle` destroys the stacks that nothing holds any more. Stacks that hold each other in
a circle stay.

What is held is marked, and `Workspace.marks` hands the marks on from the youngest component to the
oldest. A schema binds components that were there before it, and a component that nests the schema
is younger still, so one pass reaches everything, however many share it.
-/

namespace VersionedModel

/-- What is held from outside a workspace. -/
structure Holders where
  /-- Stacks. -/
  stackIds : List StackId
  /-- Schemas, those of models included. -/
  schemas : List Schema
  /-- Components. -/
  components : List ComponentId

/-- Marks on what is held, by identity. -/
structure Marks where
  /-- The marks on stacks. -/
  ofStacks : Array Bool
  /-- The marks on components. -/
  ofComponents : Array Bool

namespace Marks

/-- No marks yet, for so many stacks and components. -/
def clear (stackCount componentCount : Nat) : Marks :=
  ⟨.replicate stackCount false, .replicate componentCount false⟩

/-- Whether a stack is marked. -/
def hasStack (m : Marks) (s : StackId) : Bool :=
  m.ofStacks.getD s false

/-- Whether a component is marked. -/
def hasComponent (m : Marks) (id : ComponentId) : Bool :=
  m.ofComponents.getD id false

/-- Mark a stack. -/
def addStack (m : Marks) (s : StackId) : Marks :=
  { m with ofStacks := m.ofStacks.setIfInBounds s true }

/-- Mark a component. -/
def addComponent (m : Marks) (id : ComponentId) : Marks :=
  { m with ofComponents := m.ofComponents.setIfInBounds id true }

/-- Mark what a schema holds: its stack and the components that it binds. -/
def addSchema (m : Marks) (s : Schema) : Marks :=
  s.primaries.foldl (fun m p => m.addComponent p.target.id) (m.addStack s.stack)

/-- Mark what a component holds, if it is marked itself. -/
def passOn (m : Marks) (c : Component Schema) : Marks :=
  if m.hasComponent c.id then c.schema?.elim m m.addSchema else m

end Marks

namespace Workspace

/-- The stacks that are there. -/
def liveStacks (w : Workspace) : List StackId :=
  w.stackTable.zipIdx.filterMap fun e => e.1.map fun _ => e.2

/-- The members of all stacks. -/
def allMembers (w : Workspace) : List ComponentId :=
  w.stackTable.flatMap fun t => (t.map Stack.members).getD []

/-- Marks on what is held from outside or by stacks, directly or through components. -/
def marks (w : Workspace) (h : Holders) : Marks :=
  let blank := Marks.clear w.stackTable.length w.holdings.length
  let outer := h.schemas.foldl Marks.addSchema (h.stackIds.foldl Marks.addStack blank)
  let direct := (h.components ++ w.allMembers).foldl Marks.addComponent outer
  w.holdings.foldr (fun held m => m.passOn held.component) direct

/-- The stacks that nothing holds. -/
def unheld (w : Workspace) (h : Holders) : List StackId :=
  let marks := w.marks h
  w.liveStacks.filter fun s => !marks.hasStack s

/-- Destroy what nothing holds, in at most the given number of rounds; each round may leave
further stacks without a holder. -/
def settleWithin (w : Workspace) (h : Holders) : Nat → Workspace
  | 0 => w
  | rounds + 1 =>
    match w.unheld h with
    | [] => w
    | gone => settleWithin (gone.foldl destroy w) h rounds

/-- Destroy the stacks that nothing holds. There are no more rounds than stacks. -/
def settle (w : Workspace) (h : Holders) : Workspace :=
  w.settleWithin h w.liveStacks.length

end Workspace

end VersionedModel
