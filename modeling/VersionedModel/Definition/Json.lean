import VersionedModel.Definition.Basic
import VersionedModel.Error
import VersionedModel.Json.Printer
import VersionedModel.Json.Written

/-!
# Definitions as JSON

`StackDefinition.written` sets a definition out as a JSON object whose members stand in order of
declaration; what has its ordinary value is left out. Reading is the inverse on those objects and
more generous: members that mean nothing are passed over, what may be left out may be left out
anywhere, and a record may also be a sequence of its fields, cut short where the rest may be left
out. A field of a record may not be given twice.

Every part of a tree is read from the readings of its own parts (`Reading`), so that reading
follows the tree.
-/

namespace VersionedModel

/-! ### Writing -/

/-- The name of a rule. -/
def RuleName.name : RuleName → String
  | .version => "version"
  | .flags => "flags"
  | .always => "always"

/-- A member that is left out if there is nothing to write. -/
def optionalMember (key : String) : Option Json → List (String × Json)
  | none => []
  | some j => [(key, j)]

/-- Version bounds and flags as members. -/
def Terms.members (t : Terms) : List (String × Json) :=
  optionalMember "since" (t.since.map fun i => .integer i.toInt) ++
    optionalMember "until" (t.upTo.map fun i => .integer i.toInt) ++
    if t.flags.isEmpty then [] else [("flags", .array (t.flags.map .string))]

mutual

/-- A component as JSON, with its members in order of declaration. -/
def ComponentDefinition.written : ComponentDefinition → Json
  | .leaf kind t default exclusive =>
    .object ([("kind", .string kind.val.name), ("name", .string t.name)] ++
      optionalMember "default" default ++ t.members ++
      if exclusive then [("exclusive", .bool true)] else [])
  | .model t model =>
    .object ([("kind", .string "model"), ("name", .string t.name)] ++ t.members ++
      [("model", model.written)])

/-- Components as JSON. -/
def ComponentDefinition.writtenList : List ComponentDefinition → List Json
  | [] => []
  | c :: cs => c.written :: ComponentDefinition.writtenList cs

/-- A stack as JSON, with its members in order of declaration. -/
def StackDefinition.written : StackDefinition → Json
  | .mk name settings rule components =>
    .object ([("name", .string name)] ++
      (if settings.isEmpty then [] else [("settings", .object settings.toList)]) ++
      [("predicate", .string rule.name),
        ("components", .array (ComponentDefinition.writtenList components))])

end

namespace StackDefinition

/-- A stack as a JSON tree. -/
def toJson (d : StackDefinition) : Json :=
  d.written.ordered

/-- A stack as indented JSON text, in order of declaration. -/
def pretty (d : StackDefinition) : String :=
  d.written.render .pretty

end StackDefinition

/-! ### Reading -/

/-- What a part of a JSON tree reads as. Inside a nested model two more spellings are accepted: a
component's kind may be the position of its name, and a rule's null an object without members. -/
structure Reading where
  /-- The part itself. -/
  tree : Json
  /-- As a component, inside a nested model or not. -/
  component : Bool → Option ComponentDefinition
  /-- As a sequence of components, inside a nested model or not. -/
  components : Bool → Option (List ComponentDefinition)
  /-- As a stack, inside a nested model or not. -/
  stack : Bool → Option StackDefinition

namespace Reading

/-- A part that is neither sequence nor object. -/
def ofScalar (j : Json) : Reading := ⟨j, fun _ => none, fun _ => none, fun _ => none⟩

/-- The fields of a record: what each is called and what was given for it. -/
abbrev Fields := List (String × Reading)

/-- Whether each of the named fields is given at most once. -/
def distinct (names : List String) (fields : Fields) : Bool :=
  names.all fun name => decide ((fields.filter fun f => f.1 == name).length ≤ 1)

/-- What was given for a field. -/
def given? (fields : Fields) (name : String) : Option Reading :=
  (fields.find? fun f => f.1 == name).map Prod.snd

/-- The values of a sequence as the fields of a record, in order; there may be no more of them. -/
def asFields? (names : List String) (values : List Reading) : Option Fields :=
  if values.length ≤ names.length then some (names.zip values) else none

/-- A field that must be given, as a text. -/
def textField? (fields : Fields) (name : String) : Option String :=
  match (given? fields name).map tree with
  | some (.string s) => some s
  | _ => none

/-- A field that may be left out or null, as a version. -/
def versionField? (fields : Fields) (name : String) : Option (Option Int64) :=
  match (given? fields name).map tree with
  | none | some .null => some none
  | some (.integer n) => (Json.int64? n).map some
  | some _ => none

/-- A field that may be left out, as a list of texts. -/
def textsField? (fields : Fields) (name : String) : Option (List String) :=
  match (given? fields name).map tree with
  | none => some []
  | some (.array items) => items.mapM fun
    | .string s => some s
    | _ => none
  | some _ => none

/-- A field that may be left out, as a truth value. -/
def boolField? (fields : Fields) (name : String) : Option Bool :=
  match (given? fields name).map tree with
  | none => some false
  | some (.bool b) => some b
  | some _ => none

/-- A field that may be left out or null, as any data. -/
def dataField (fields : Fields) (name : String) : Option Json :=
  match (given? fields name).map tree with
  | none | some .null => none
  | some j => some j.ordered

/-- A field that may be left out, as data by key. -/
def dictField? (fields : Fields) (name : String) : Option (Dict Json) :=
  match (given? fields name).map tree with
  | none => some ∅
  | some (.object members) => some (.ofList (Json.orderedMembers members))
  | some _ => none

/-- The rule with a name. -/
def ruleNamed? (s : String) : Option RuleName :=
  [RuleName.version, .flags, .always].find? fun r => r.name == s

/-- A field that may be left out, as a rule: its name, or an object with its name over null. -/
def ruleField? (nested : Bool) (fields : Fields) (name : String) : Option RuleName :=
  match (given? fields name).map tree with
  | none => some .version
  | some (.string s) => ruleNamed? s
  | some (.object [(s, .null)]) => ruleNamed? s
  | some (.object [(s, .object [])]) => if nested then ruleNamed? s else none
  | some _ => none

/-- The names of component kinds, in order. -/
def kindNames : List String :=
  ["any", "bool", "integer", "float", "string", "bytes", "array", "map", "model"]

/-- The name of a component's kind. -/
def kindName? (nested : Bool) : Json → Option String
  | .string s => if kindNames.contains s then some s else none
  | .integer n => if nested ∧ 0 ≤ n then kindNames[n.toNat]? else none
  | _ => none

/-- The terms among the fields of a component. -/
def terms? (fields : Fields) : Option Terms := do
  return {
    name := ← textField? fields "name"
    since := ← versionField? fields "since"
    upTo := ← versionField? fields "until"
    flags := ← textsField? fields "flags" }

/-- The fields of a leaf component. -/
def leafFields : List String := ["name", "default", "since", "until", "flags", "exclusive"]

/-- The fields of a component with a nested model. -/
def modelFields : List String := ["name", "since", "until", "flags", "model"]

/-- A component with a nested model, from its fields. -/
def modelComponent? (fields : Fields) : Option ComponentDefinition := do
  if !distinct modelFields fields then none
  return .model (← terms? fields) (← (← given? fields "model").stack true)

/-- A leaf component, from the name of its kind and its fields. -/
def leafComponent? (kind : String) (fields : Fields) : Option ComponentDefinition := do
  if !distinct leafFields fields then none
  return .leaf (.ofKind (← ValueKind.ofName? kind)) (← terms? fields) (dataField fields "default")
    (← boolField? fields "exclusive")

/-- A component from an object. -/
def componentOfMembers? (fields : Fields) (nested : Bool) : Option ComponentDefinition := do
  if !distinct ["kind"] fields then none
  let kind ← kindName? nested (← given? fields "kind").tree
  if kind = "model" then modelComponent? fields else leafComponent? kind fields

/-- A component from a sequence. -/
def componentOfItems? (values : List Reading) (nested : Bool) : Option ComponentDefinition :=
  match values with
  | [] => none
  | tag :: rest => do
    let kind ← kindName? nested tag.tree
    if kind = "model" then modelComponent? (← asFields? modelFields rest)
    else leafComponent? kind (← asFields? leafFields rest)

/-- The fields of a stack. -/
def stackFields : List String := ["name", "settings", "predicate", "components"]

/-- A stack from its fields. -/
def stackOfMembers? (fields : Fields) (nested : Bool) : Option StackDefinition := do
  if !distinct stackFields fields then none
  let name ← textField? fields "name"
  let settings ← dictField? fields "settings"
  let rule ← ruleField? nested fields "predicate"
  let components ← match given? fields "components" with
    | none => some []
    | some r => r.components nested
  return .mk name settings rule components

/-- A stack from a sequence. -/
def stackOfItems? (values : List Reading) (nested : Bool) : Option StackDefinition := do
  stackOfMembers? (← asFields? stackFields values) nested

mutual

/-- What a tree reads as. -/
def ofJson : Json → Reading
  | .array items =>
    let values := ofItems items
    { tree := .array items
      component := componentOfItems? values
      components := fun nested => values.mapM fun r => r.component nested
      stack := stackOfItems? values }
  | .object members =>
    let fields := ofMembers members
    { tree := .object members
      component := componentOfMembers? fields
      components := fun _ => none
      stack := stackOfMembers? fields }
  | j => ofScalar j

/-- What the items of a sequence read as. -/
def ofItems : List Json → List Reading
  | [] => []
  | j :: js => ofJson j :: ofItems js

/-- What the members of an object read as. -/
def ofMembers : List (String × Json) → Fields
  | [] => []
  | (k, j) :: ms => (k, ofJson j) :: ofMembers ms

end

end Reading

namespace StackDefinition

/-- The outcome of a reading. -/
def decoded {α : Type} : Option α → Except Error α
  | some a => .ok a
  | none => .error (.decode .json .malformed)

/-- The stack that a JSON tree describes. -/
def ofJson (j : Json) : Except Error StackDefinition :=
  decoded ((Reading.ofJson j).stack false)

/-- The stack that a JSON text describes. Members of the outermost object that mean nothing are not
even looked at. -/
def ofText (s : String) : Except Error StackDefinition :=
  decoded do
    let w ← Json.Written.parse s
    let j ← w.record? Reading.stackFields
    (Reading.ofJson j).stack false

/-- The stack that the text in a file describes, if the file can be read. -/
def ofFile (file : String) : Option String → Except Error StackDefinition
  | some text => ofText text
  | none => .error (.unreadable file)

end StackDefinition

namespace ComponentDefinition

/-- The component that a JSON text describes. -/
def ofText (s : String) : Except Error ComponentDefinition :=
  StackDefinition.decoded do
    let w ← Json.Written.parse s
    let j ← w.tree?
    (Reading.ofJson j).component false

end ComponentDefinition

end VersionedModel
