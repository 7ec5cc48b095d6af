import VersionedModel.Feature.Basic

/-!
# Stock hooks

Ready-made hooks on values, maps, arrays, bytes and integers. A hook made for one kind of value
leaves values of other kinds as they are.
-/

namespace VersionedModel

namespace Hook

/-- Leave every value as it is. -/
def identity : Hook := fun v _ => .ok v

/-- Fail with a message. -/
def fail (message : String) : Hook := fun _ _ => .error (.other message)

/-- Give the setting under a key, or null. -/
def setting (key : String) : Hook := fun _ settings => .ok ((settings.get? key).getD .null)

/-- Put the value into a map, under a key. -/
def wrap (key : String) : Hook := fun v _ => .ok (.map [(key, v)])

/-- Change the entries of a map. -/
def onMap (change : List (String × Value) → List (String × Value)) : Hook := fun v _ =>
  match v with
  | .map entries => .ok (.map (change entries))
  | v => .ok v

/-- Set a key of a map. -/
def set (key : String) (x : Value) : Hook :=
  onMap (Entries.insert key x)

/-- Drop a key of a map. -/
def remove (key : String) : Hook :=
  onMap (Entries.erase key)

/-- Add a value to the array under a key of a map; a key that is not there has an empty array, and
anything but an array is left as it is. -/
def append (key : String) (x : Value) : Hook :=
  onMap fun entries =>
    match Entries.get? key entries with
    | none => Entries.insert key (.array [x]) entries
    | some (.array items) => Entries.insert key (.array (items ++ [x])) entries
    | some _ => entries

/-- Add a value to an array. -/
def push (x : Value) : Hook := fun v _ =>
  match v with
  | .array items => .ok (.array (items ++ [x]))
  | v => .ok v

/-- Reverse bytes. -/
def reverse : Hook := fun v _ =>
  match v with
  | .bytes bs => .ok (.bytes bs.reverse)
  | v => .ok v

/-- Add bytes to bytes. -/
def suffix (x : Value) : Hook := fun v _ =>
  match v, x with
  | .bytes bs, .bytes more => .ok (.bytes (bs ++ more))
  | v, _ => .ok v

/-- Add an integer to an integer; the sum wraps around. Anything else counts as zero. -/
def add (x : Value) : Hook := fun v _ =>
  match v with
  | .integer i => .ok (.integer (i + (x.integer?).getD 0))
  | v => .ok v

/-- The stock hook with a name, made for a key and a value as far as it needs them; every other name
is that of the identity. -/
def named (name key : String) (x : Value) : Hook :=
  match name with
  | "fail" => fail key
  | "setting" => setting key
  | "wrap" => wrap key
  | "set" => set key x
  | "remove" => remove key
  | "append" => append key x
  | "push" => push x
  | "reverse" => reverse
  | "suffix" => suffix x
  | "add" => add x
  | _ => identity

end Hook

end VersionedModel
