import VersionedModel.Proofs.Model.FailedUpdates

/-!
# Instances with their cells

A storage of slots says of nested instances no more than what is stored in them. Here instances are
whole: each has a schema, a name, defaults and settings of its own, and a cell for each primary,
with the value of a leaf or with a nested instance once this was made (`Instance`, `Cell`). What is
done goes by the cells: a cell says by its own kind whether it is a leaf, and a nested instance is
asked for its own schema. It is made when it is first read or written through (`Primary.enter`).

So there is more than failures that may stop what is done (`Stop`): a slot that is not there, a
nested instance to be made where the field nests no schema, and a cell that is empty although a
nested instance was put into it.
-/

namespace VersionedModel

mutual

/-- An instance with what it has of its own and what it holds. -/
inductive Instance where
  /-- An instance from its parts. -/
  | mk (schema : Schema) (name : String) (defaults : Dict Value) (settings : Settings)
      (cells : List Cell)

/-- What an instance holds for one primary. -/
inductive Cell where
  /-- The value of a leaf, if it was set. -/
  | leaf (stored : Option Value)
  /-- A nested instance, if it was made. -/
  | nested (made : Option Instance)

end

/-- What stops something that is done to an instance. -/
inductive Stop where
  /-- It fails. -/
  | failed (e : Error)
  /-- There is no such slot. -/
  | outOfRange (slot : Nat)
  /-- A nested instance has to be made, but the field nests no schema. -/
  | noSchema (field : String)
  /-- The cell is empty although a nested instance was put into it. -/
  | emptyCell (field : String)

namespace Instance

/-- The schema. -/
def schema : Instance → Schema
  | mk schema _ _ _ _ => schema

/-- The name. -/
def name : Instance → String
  | mk _ name _ _ _ => name

/-- The instance's own values for fields that were never set. -/
def defaults : Instance → Dict Value
  | mk _ _ defaults _ _ => defaults

/-- The instance's own settings. -/
def settings : Instance → Settings
  | mk _ _ _ settings _ => settings

/-- What it holds, slot by slot. -/
def cells : Instance → List Cell
  | mk _ _ _ _ cells => cells

/-- The instance with something else in a slot. -/
def setCell (i : Instance) (slot : Nat) (c : Cell) : Instance :=
  mk i.schema i.name i.defaults i.settings (i.cells.set slot c)

end Instance

/-! ### What is stored -/

mutual

/-- The storage of an instance. -/
def Instance.slots : Instance → List Slot
  | .mk _ _ _ _ cells => Cell.slots cells

/-- What is stored in a cell. -/
def Cell.slot : Cell → Slot
  | .leaf stored => .leaf stored
  | .nested none => .closed
  | .nested (some n) => .opened n.slots

/-- What is stored in several cells. -/
def Cell.slots : List Cell → List Slot
  | [] => []
  | c :: cells => c.slot :: Cell.slots cells

end

/-- The instance as a model: nested instances count by their storages only. -/
def Instance.model (i : Instance) : Model where
  schema := i.schema
  name := i.name
  defaults := i.defaults
  settings := i.settings
  slots := i.slots

mutual

/-- Forget everything that is stored; nested instances that were made stay. -/
def Instance.clear : Instance → Instance
  | .mk schema name defaults settings cells =>
    .mk schema name defaults settings (Cell.clearAll cells)

/-- Forget what is stored in a cell. -/
def Cell.clear : Cell → Cell
  | .leaf _ => .leaf none
  | .nested none => .nested none
  | .nested (some n) => .nested (some n.clear)

/-- Forget what is stored in several cells. -/
def Cell.clearAll : List Cell → List Cell
  | [] => []
  | c :: cells => c.clear :: Cell.clearAll cells

end

/-! ### Cells of primaries -/

/-- The cell of a primary that was never written. -/
def Primary.newCell (p : Primary (Component Schema)) : Cell :=
  if p.target.isModel then .nested none else .leaf none

/-- An instance that was never written. -/
def Instance.new (s : Schema) : Instance :=
  .mk s s.name ∅ ∅ (s.primaries.map Primary.newCell)

/-- The nested instance of a primary, newly made. -/
def Primary.instantiate (p : Primary (Component Schema)) : Except Stop Instance :=
  match p.target.schema? with
  | some t => .ok (.new t)
  | none => .error (.noSchema p.name)

/-- The nested instance in the cell of a primary, which is made if it was not made before. -/
def Primary.enter (p : Primary (Component Schema)) (made : Option Instance) :
    Except Stop Instance := do
  let content ← match made with
    | some n => pure (some n)
    | none => some <$> p.instantiate
  match content with
  | some n => return n
  | none => throw (.emptyCell p.name)

namespace Instance

/-! ### Changing instances -/

/-- A change of an instance; what stops it does not take back what was changed. -/
abbrev Change := EStateM Stop Instance

/-- The primary behind a name that must be bound. -/
def lookup (name : String) : Change (Primary (Component Schema)) := fun i =>
  match Storage.primary i.schema name with
  | .ok p => .ok p i
  | .error e => .error (.failed e) i

/-- The cell of a slot that must be there. -/
def cellAt (slot : Nat) : Change Cell := fun i =>
  match i.cells[slot]? with
  | some c => .ok c i
  | none => .error (.outOfRange slot) i

/-- Change the nested instance in the cell of a primary. -/
def within (p : Primary (Component Schema)) (made : Option Instance) (change : Change Unit) :
    Change Unit := fun i =>
  match p.enter made with
  | .error stop => .error stop i
  | .ok n =>
    match change n with
    | .ok () n' => .ok () (i.setCell p.slot (.nested (some n')))
    | .error stop n' => .error stop (i.setCell p.slot (.nested (some n')))

/-- Go by the cell of a field: do one thing if it is that of a leaf, or another one in the nested
instance. -/
def atField (name : String) (leaf : Primary (Component Schema) → Change Unit)
    (nested : Change Unit) : Change Unit := do
  let p ← lookup name
  match ← cellAt p.slot with
  | .leaf _ => leaf p
  | .nested made => within p made nested

/-- Change a field: store a value if it is a leaf, or change the nested instance. -/
def change (name : String) (stored : Option Value) (nested : Change Unit) : Change Unit :=
  atField name (fun p => modify fun i => i.setCell p.slot (.leaf stored)) nested

/-- Go on only after a check that succeeds. -/
def guarded (checked : Except Error Unit) (change : Change Unit) : Change Unit :=
  match checked with
  | .ok () => change
  | .error e => throw (.failed e)

mutual

/-- Load a value. -/
def load : Value → Change Unit
  | .array items => do
    let s := (← get).schema
    guarded (Storage.checkItems s (Storage.names s) items) (putItems (Storage.names s) items)
  | .map entries => do
    let s := (← get).schema
    guarded (Storage.checkEntries s entries) (putEntries s entries)
  | v => throw (.failed (.unsupportedPayload v.kind))

/-- Write values that go by position. -/
def putItems : List String → List Value → Change Unit
  | name :: names, v :: items => do
    change name (some v) (load v)
    putItems names items
  | _, _ => pure ()

/-- Write values that go by name, leaving out names that the schema does not bind. -/
def putEntries (s : Schema) : List (String × Value) → Change Unit
  | [] => pure ()
  | (name, v) :: entries => do
    if s.binds name then change name (some v) (load v)
    putEntries s entries

end

/-- Load a payload. -/
def setState : Payload → Change Unit
  | .sequence items => load (.array items)
  | .mapping entries => load (.map entries)

/-- Write a field. -/
def write (name : String) : Write → Change Unit
  | .set v => change name (some v) (load v)
  | .clear => change name none (modify clear)

/-- Write the field at the end of a chain of names. -/
def writeAt (what : Write) : List String → Change Unit
  | [] => throw (.failed (.invalidName .emptyPath))
  | [name] => write name what
  | name :: rest => atField name (fun _ => throw (.failed (.notAModel name))) (writeAt what rest)

/-- Write several fields, one after the other. -/
def writeAll : List (String × Value) → Change Unit
  | [] => pure ()
  | (name, v) :: rest => do
    write name (.set v)
    writeAll rest

/-- An instance with something of its own, before fields are given values. -/
def blank (s : Schema) (o : Model.Options) : Instance :=
  .mk s (o.name.getD s.name) o.defaults
    (.ofList (o.settings.toList.filter fun e => !s.binds e.1)) (new s).cells

/-- An instance with something of its own. -/
def withOptions (s : Schema) (o : Model.Options) : Except Stop Instance :=
  match writeAll (o.settings.toList.filter fun e => s.binds e.1) (blank s o) with
  | .ok () i => .ok i
  | .error stop _ => .error stop

/-- Try something. -/
def attempt : Model.Attempt → Change Unit
  | .set name v => write name (.set v)
  | .clearField name => write name .clear
  | .writeAt names what => writeAt what names
  | .bind pairs => setState (.mapping pairs)
  | .setState p => setState p
  | .loadState v => load v
  | .load w t payload call => fun i =>
    match i.model.rawOf w t payload call with
    | .ok raw => load raw i
    | .error e => .error (.failed e) i

/-! ### Reading -/

/-- What a reading looks at: fields, one after the other, and in a nested instance what is looked
at there. A primary is found by its own name. -/
inductive Reading where
  /-- Several fields, each with what is looked at if it holds a nested instance. -/
  | fields (fields : List (String × Reading))

mutual

/-- Read; nested instances that are read through are made. -/
def read : Reading → Change Unit
  | .fields fields => readAll fields

/-- Read several fields. -/
def readAll : List (String × Reading) → Change Unit
  | [] => pure ()
  | (name, inner) :: fields => do
    atField name (fun _ => pure ()) (read inner)
    readAll fields

end

end Instance

/-! ### Uses -/

/-- One use of an instance, or of a nested one that it holds. -/
inductive Use where
  /-- Something is read. -/
  | read (reading : Instance.Reading)
  /-- Something is tried. -/
  | attempt (a : Model.Attempt)
  /-- Everything is cleared. -/
  | clear
  /-- The nested instance in a field is used. -/
  | inside (name : String) (u : Use)

/-- Use an instance. -/
def Use.run : Use → Instance.Change Unit
  | read reading => Instance.read reading
  | attempt a => Instance.attempt a
  | clear => modify Instance.clear
  | inside name u => Instance.atField name (fun _ => throw (.failed (.notAModel name))) u.run

/-- The instance after uses, one after the other. Uses may fail, but nothing else may stop them. -/
def Instance.after : List Use → Instance → Except Stop Instance
  | [], i => .ok i
  | u :: uses, i =>
    match u.run i with
    | .ok () i' => after uses i'
    | .error (.failed _) i' => after uses i'
    | .error stop _ => .error stop

end VersionedModel
