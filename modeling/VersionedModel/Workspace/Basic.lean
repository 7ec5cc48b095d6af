import VersionedModel.Listing
import VersionedModel.Path
import VersionedModel.Rule

/-!
# Workspaces

A workspace holds everything that is shared and changes: the components, each with a mark that
says whether a stack owns it, and the stacks. Both are numbered in the order of their creation. A
stack that has been destroyed leaves a gap and its number is never used again.

`Workspace.matching` is the view that models have of a stack: the members that take part under
given settings, by name, where the last of several members with one name counts.
-/

namespace VersionedModel

/-- An ordered collection of components with a rule on who takes part. -/
structure Stack where
  /-- Decides which members take part. -/
  rule : Rule
  /-- The members, in order. -/
  members : List ComponentId

/-- A component with its mark of ownership. -/
structure Holding where
  /-- The component. -/
  component : Component Schema
  /-- Whether a stack owns it. -/
  owned : Bool

/-- Components and stacks. -/
structure Workspace where
  /-- The components, by identity. -/
  holdings : List Holding
  /-- The stacks, by identity; those that have been destroyed are gaps. -/
  stackTable : List (Option Stack)

namespace Workspace

/-- The workspace without components and stacks. -/
def empty : Workspace := ⟨[], []⟩

/-! ### Components -/

/-- A component. -/
def component? (w : Workspace) (id : ComponentId) : Option (Component Schema) :=
  (w.holdings[id]?).map Holding.component

/-- Whether a component is marked as owned. -/
def isOwned (w : Workspace) (id : ComponentId) : Bool :=
  (w.holdings[id]?).any Holding.owned

/-- Add a component, unowned, under a new identity. -/
def declare (w : Workspace) (c : Component Schema) : ComponentId × Workspace :=
  let id := w.holdings.length
  (id, { w with holdings := w.holdings ++ [⟨{ c with id := id }, false⟩] })

/-- Mark a component as owned or not. -/
def mark (w : Workspace) (id : ComponentId) (owned : Bool) : Workspace :=
  { w with holdings := w.holdings.modify id fun h => { h with owned := owned } }

/-- Mark components as not owned. -/
def release (w : Workspace) (ids : List ComponentId) : Workspace :=
  ids.foldl (fun w id => w.mark id false) w

/-- Name a component. -/
def rename (w : Workspace) (id : ComponentId) (name : String) : Workspace :=
  { w with holdings := w.holdings.modify id fun h =>
      { h with component := { h.component with name := some name } } }

/-! ### Stacks -/

/-- A stack. -/
def stack? (w : Workspace) (s : StackId) : Option Stack :=
  (w.stackTable[s]?).join

/-- Add a stack without members. -/
def openStack (w : Workspace) (rule : Rule) : StackId × Workspace :=
  (w.stackTable.length, { w with stackTable := w.stackTable ++ [some ⟨rule, []⟩] })

/-- The identities of a stack's members, in order. -/
def memberIds (w : Workspace) (s : StackId) : List ComponentId :=
  ((w.stack? s).map Stack.members).getD []

/-- A stack's members, in order. -/
def members (w : Workspace) (s : StackId) : List (Component Schema) :=
  (w.memberIds s).filterMap w.component?

/-- Change a stack's members. -/
def setMembers (w : Workspace) (s : StackId) (ids : List ComponentId) : Workspace :=
  { w with stackTable := w.stackTable.modify s (Option.map fun t => { t with members := ids }) }

/-- Destroy a stack and release its members. -/
def destroy (w : Workspace) (s : StackId) : Workspace :=
  let released := w.release (w.memberIds s)
  { released with stackTable := released.stackTable.modify s fun _ => none }

/-! ### Matching -/

/-- Whether a component takes part in a stack under given settings. -/
def passes (w : Workspace) (s : StackId) (settings : Settings) (c : Component Schema) : Bool :=
  (w.stack? s).any fun t => t.rule c settings

/-- Named components by name: a later one takes the place of an earlier one of its name. -/
def byName (cs : List (Component Schema)) : List (String × Component Schema) :=
  Listing.ofList (cs.filterMap fun c => c.name.map fun name => (name, c))

/-- The members of a stack that take part under given settings, by name. -/
def matching (w : Workspace) (s : StackId) (settings : Settings) :
    List (String × Component Schema) :=
  byName ((w.members s).filter (w.passes s settings))

end Workspace

end VersionedModel
