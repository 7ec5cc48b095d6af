import VersionedModel.Schema
import VersionedModel.State

/-!
# Storage of instances

An instance of a schema keeps one slot for each primary: the value of a leaf, or the storage of a
nested instance, which is opened when something is first written through it. `Storage.load` takes
a decoded value into an instance: by position or by name, leaving out what the schema does not
bind, and into nested instances at every depth. Before anything is written, the values meant for
nested instances are checked, at every depth (`Storage.check`).

A change keeps what it did before it failed; that a failed load did nothing is for proofs to say,
not for the definition.
-/

namespace VersionedModel

/-- What an instance keeps for one primary. -/
inductive Slot where
  /-- The value of a leaf, if it was set. -/
  | leaf (stored : Option Value)
  /-- A nested instance that nothing was written through. -/
  | closed
  /-- A nested instance with its storage. -/
  | opened (slots : List Slot)
  deriving Inhabited, Repr

/-- What to do with a field. -/
inductive Write where
  /-- Give it a value; a nested instance loads the value. -/
  | set (v : Value)
  /-- Take its value away; a nested instance is cleared. -/
  | clear
  deriving DecidableEq, Repr

/-- The slot of a primary that was never written. -/
def Primary.fresh (p : Primary (Component Schema)) : Slot :=
  if p.target.isModel then .closed else .leaf none

/-- The storage of an instance that was never written. -/
def Schema.fresh (s : Schema) : List Slot :=
  s.primaries.map Primary.fresh

namespace Slot

mutual

/-- Forget everything that is stored; opened instances stay open. -/
def clear : Slot → Slot
  | leaf _ => leaf none
  | closed => closed
  | opened slots => opened (clearAll slots)

/-- Forget everything that is stored in several slots. -/
def clearAll : List Slot → List Slot
  | [] => []
  | slot :: slots => slot.clear :: clearAll slots

end

end Slot

namespace Storage

/-- A change of an instance's storage; a failure does not take back what was changed. -/
abbrev Change := EStateM Error (List Slot)

/-- The value that is stored in a slot. -/
def stored? (slots : List Slot) (i : Nat) : Option Value :=
  match slots[i]? with
  | some (.leaf v) => v
  | _ => none

/-- The storage of the nested instance in a slot. -/
def inner (s : Schema) (slots : List Slot) (i : Nat) : List Slot :=
  match slots[i]? with
  | some (.opened inner) => inner
  | _ => s.fresh

/-- Change the storage of the nested instance in a slot. -/
def within (s : Schema) (i : Nat) (change : Change Unit) : Change Unit := fun slots =>
  match change (inner s slots i) with
  | .ok () changed => .ok () (slots.set i (.opened changed))
  | .error e changed => .error e (slots.set i (.opened changed))

/-- The primary behind a name that must be bound. -/
def primary (s : Schema) (name : String) : Except Error (Primary (Component Schema)) :=
  match s.resolve? name with
  | some p => .ok p
  | none => .error (.unknownField name)

/-- The nested schema behind a name. -/
def nested? (s : Schema) (name : String) : Option Schema :=
  (s.resolve? name).bind fun p => p.target.schema?

/-- Change a field: store a value if it is a leaf, or change the nested instance. -/
def change (s : Schema) (name : String) (stored : Option Value)
    (nested : Schema → Change Unit) : Change Unit := do
  match primary s name with
  | .error e => throw e
  | .ok p =>
    match p.target.kind with
    | .leaf _ => modify fun slots => slots.set p.slot (.leaf stored)
    | .model t => within t p.slot (nested t)

/-- The names of the primaries, in order. -/
def names (s : Schema) : List String :=
  s.primaries.map Primary.name

/-! ### Checking -/

mutual

/-- Check that a value can be loaded: at every depth, nested instances are given arrays and maps
only. -/
def check (s : Schema) : Value → Except Error Unit
  | .array items => checkItems s (names s) items
  | .map entries => checkEntries s entries
  | v => .error (.unsupportedPayload v.kind)

/-- Check values that go by position. -/
def checkItems (s : Schema) : List String → List Value → Except Error Unit
  | name :: names, v :: items => do
    if let some t := nested? s name then check t v
    checkItems s names items
  | _, _ => .ok ()

/-- Check values that go by name. -/
def checkEntries (s : Schema) : List (String × Value) → Except Error Unit
  | [] => .ok ()
  | (name, v) :: entries => do
    if let some t := nested? s name then check t v
    checkEntries s entries

end

/-- Check a payload. -/
def checkPayload (s : Schema) : Payload → Except Error Unit
  | .sequence items => checkItems s (names s) items
  | .mapping entries => checkEntries s entries

/-! ### Writing -/

/-- Go on only after a check that succeeds. -/
def guarded (checked : Except Error Unit) (change : Change Unit) : Change Unit :=
  match checked with
  | .ok () => change
  | .error e => throw e

mutual

/-- Load a value. -/
def load (s : Schema) : Value → Change Unit
  | .array items => guarded (checkItems s (names s) items) (putItems s (names s) items)
  | .map entries => guarded (checkEntries s entries) (putEntries s entries)
  | v => throw (.unsupportedPayload v.kind)

/-- Write values that go by position. -/
def putItems (s : Schema) : List String → List Value → Change Unit
  | name :: names, v :: items => do
    change s name (some v) fun t => load t v
    putItems s names items
  | _, _ => pure ()

/-- Write values that go by name, leaving out names that are not bound. -/
def putEntries (s : Schema) : List (String × Value) → Change Unit
  | [] => pure ()
  | (name, v) :: entries => do
    if s.binds name then change s name (some v) fun t => load t v
    putEntries s entries

end

/-- Write a payload. -/
def putPayload (s : Schema) : Payload → Change Unit
  | .sequence items => putItems s (names s) items
  | .mapping entries => putEntries s entries

/-- Load a payload. -/
def loadPayload (s : Schema) (p : Payload) : Change Unit :=
  guarded (checkPayload s p) (putPayload s p)

/-- Write a field. -/
def set (s : Schema) (name : String) : Write → Change Unit
  | .set v => change s name (some v) fun t => load t v
  | .clear => change s name none fun _ => modify Slot.clearAll

/-- Write the field at the end of a chain of names, the last of which is `name`, through the
nested instances that the others lead to. -/
def setAt (s : Schema) (write : Write) : List String → Change Unit
  | [] => throw (.invalidName .emptyPath)
  | [name] => set s name write
  | name :: rest => do
    match primary s name with
    | .error e => throw e
    | .ok p =>
      match p.target.kind with
      | .leaf _ => throw (.notAModel name)
      | .model t => within t p.slot (setAt t write rest)

end Storage

end VersionedModel
