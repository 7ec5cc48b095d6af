import VersionedModel.Error

/-!
# Paths

A `Path` is a chain of field names. Its text has the names separated by slashes; `Path.parse`
drops empty segments, so `a//b/` and `a/b` are one path, and refuses a segment that is no
identifier, with its position among the segments that count. `Value.at?` follows a path through
maps.
-/

namespace VersionedModel

/-- A chain of field names. -/
structure Path where
  /-- The names, outermost first. -/
  components : List String
  deriving DecidableEq, Repr

namespace Path

/-- The stretches of a text between slashes. -/
def segments : List Char → List (List Char)
  | [] => [[]]
  | c :: cs =>
    if c = '/' then [] :: segments cs
    else
      match segments cs with
      | [] => [[c]]
      | s :: rest => (c :: s) :: rest

/-- Check one component that stands at a position. -/
def checkComponent (position : Nat) (name : String) : Except Error Unit :=
  match Text.identifierFault? name.toList with
  | none => .ok ()
  | some fault => .error (.invalidName (.component name position fault))

/-- Check components from a position on; the first bad one counts. -/
def checkFrom (position : Nat) : List String → Except Error Unit
  | [] => .ok ()
  | name :: rest => do
    checkComponent position name
    checkFrom (position + 1) rest

/-- Check that a text can be the name of a field. -/
def validateName (name : String) : Except Error Unit :=
  checkComponent 0 name

/-- Read a path. -/
def parse (s : String) : Except Error Path := do
  let components := ((segments s.toList).filter fun c => !c.isEmpty).map String.ofList
  checkFrom 0 components
  return ⟨components⟩

/-- The path of one field. -/
def field (name : String) : Except Error Path := do
  validateName name
  return ⟨[name]⟩

/-- The text of a path. -/
def render (p : Path) : String :=
  "/".intercalate p.components

/-- The first name and the path behind it. -/
def splitFirst? (p : Path) : Option (String × Path) :=
  match p.components with
  | [] => none
  | name :: rest => some (name, ⟨rest⟩)

/-- One path followed by another. -/
def join (p q : Path) : Path :=
  ⟨p.components ++ q.components⟩

/-- Paths are ordered name by name, and names character by character. -/
def compare (p q : Path) : Ordering :=
  Ord.compare p.components q.components

end Path

namespace Value

/-- The value at the end of a chain of map keys. -/
def at? : Value → List String → Option Value
  | v, [] => some v
  | .map entries, k :: rest =>
    match Entries.get? k entries with
    | some v => v.at? rest
    | none => none
  | _, _ :: _ => none

end Value

end VersionedModel
