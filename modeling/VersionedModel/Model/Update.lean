import VersionedModel.Model.Basic

/-!
# Changing models

Updates write fields, by name or at the end of a path, load payloads and clear. An update may
fail, and then the model is what the failed change left of it.

`Model.withOptions` makes a model with something of its own. Settings whose key is the name of a
field are values for that field and do not stay settings.
-/

namespace VersionedModel

namespace Model

/-- A change of a model; a failure does not take back what was changed. -/
abbrev Update := EStateM Error Model

/-- A change of what a model stores, given its schema. -/
def changing (change : Schema → Storage.Change Unit) : Update Unit := fun m =>
  match change m.schema m.slots with
  | .ok () slots => .ok () { m with slots := slots }
  | .error e slots => .error e { m with slots := slots }

/-- Write a field by its name or an alias. -/
def write (name : String) (what : Write) : Update Unit :=
  changing fun s => Storage.set s name what

/-- Give a field a value. -/
def set (name : String) (v : Value) : Update Unit :=
  write name (.set v)

/-- Take a field's value away. -/
def clearField (name : String) : Update Unit :=
  write name .clear

/-- Write the field at the end of a chain of names. -/
def writeAt (names : List String) (what : Write) : Update Unit :=
  changing fun s => Storage.setAt s what names

/-- Load a payload. -/
def setState (p : Payload) : Update Unit :=
  changing fun s => Storage.loadPayload s p

/-- Load values by name. -/
def bind (pairs : List (String × Value)) : Update Unit :=
  setState (.mapping pairs)

/-- Load a value, which must be an array or a map. -/
def loadState (v : Value) : Update Unit :=
  match Payload.ofValue v with
  | .ok p => setState p
  | .error e => throw e

/-- Take every field's value away, at every depth. -/
def clear (m : Model) : Model :=
  { m with slots := Slot.clearAll m.slots }

/-! ### Making models -/

/-- What a model may have of its own. -/
structure Options where
  /-- A name other than the schema's. -/
  name : Option String
  /-- Values for fields that were never set. -/
  defaults : Dict Value
  /-- Settings, and values for fields. -/
  settings : Settings

/-- Nothing. -/
def Options.none : Options := ⟨.none, ∅, ∅⟩

/-- Write several fields, one after the other. -/
def setAll : List (String × Value) → Update Unit
  | [] => pure ()
  | (name, v) :: rest => do
    set name v
    setAll rest

/-- A model with something of its own. -/
def withOptions (s : Schema) (o : Options) : Except Error Model :=
  let initial := o.settings.toList.filter fun e => s.binds e.1
  let kept := o.settings.toList.filter fun e => !s.binds e.1
  let m : Model :=
    { new s with
      name := o.name.getD s.name
      defaults := o.defaults
      settings := .ofList kept }
  match setAll initial m with
  | .ok () m => .ok m
  | .error e _ => .error e

end Model

end VersionedModel
