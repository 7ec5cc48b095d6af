import VersionedModel.Binary64.Shortest
import VersionedModel.Feature.Basic
import VersionedModel.Text.Quoted
import VersionedModel.Workspace.Basic

/-!
# Inspection

One-line texts that show what values, components, stacks and features are made of, for logs and
failing tests. They name every part and are not meant to be read back.
-/

namespace VersionedModel

namespace Inspection

/-- Of two equally near decimals the one farther from zero is shown. Numbers from `0.0001` to below
`10 ^ 16` are written out, and an exponent carries no plus sign. -/
def numberLayout : Binary64.Layout := ⟨.away, -4, 15, false⟩

/-- Something with a part in parentheses. -/
def tagged (tag part : String) : String :=
  tag ++ "(" ++ part ++ ")"

/-- Parts in brackets. -/
def listed (parts : List String) : String :=
  "[" ++ ", ".intercalate parts ++ "]"

/-- Something with named parts in braces. -/
def record (tag : String) (fields : List (String × String)) : String :=
  tag ++ " \x7b " ++ ", ".intercalate (fields.map fun f => f.1 ++ ": " ++ f.2) ++ " \x7d"

/-- Something that may not be there. -/
def optional {α : Type} (text : α → String) : Option α → String
  | none => "None"
  | some a => tagged "Some" (text a)

/-- The name of a kind, with a capital letter. -/
def kind : ValueKind → String
  | .any => "Any"
  | .null => "Null"
  | .bool => "Bool"
  | .integer => "Integer"
  | .float => "Float"
  | .string => "String"
  | .bytes => "Bytes"
  | .array => "Array"
  | .map => "Map"

mutual

/-- The text for a value. -/
def value : Value → String
  | .null => "Null"
  | .bool b => tagged "Bool" (if b then "true" else "false")
  | .integer i => tagged "Integer" (toString i.toInt)
  | .float x => tagged "Float" (x.render numberLayout)
  | .string s => tagged "String" (Text.quoted s)
  | .bytes bs => tagged "Bytes" (listed (bs.map fun b => toString b.toNat))
  | .array items => tagged "Array" (listed (values items))
  | .map es => tagged "Map" ("\x7b" ++ ", ".intercalate (entries es) ++ "\x7d")

/-- The texts for a sequence of values. -/
def values : List Value → List String
  | [] => []
  | v :: vs => value v :: values vs

/-- The texts for the entries of a map. -/
def entries : List (String × Value) → List String
  | [] => []
  | (k, v) :: es => (Text.quoted k ++ ": " ++ value v) :: entries es

end

/-- The text for what a component stores. -/
def fieldKind : FieldKind Schema → String
  | .leaf k => tagged "Leaf" (kind k)
  | .model s => tagged "Model" (Text.quoted s.name)

/-- The text for a version. -/
def version (v : Int64) : String :=
  toString v.toInt

/-- The text for a component with its mark of ownership. -/
def holding (h : Holding) : String :=
  record "Component" [
    ("name", optional Text.quoted h.component.name),
    ("kind", fieldKind h.component.kind),
    ("default", optional value h.component.default),
    ("since_version", optional version h.component.firstVersion),
    ("until_version", optional version h.component.lastVersion),
    ("owned", if h.owned then "true" else "false")]

/-- The text for a stack with the given members. -/
def stack (members : List (Component Schema)) : String :=
  record "Stack" [("components", listed (members.map fun c => Text.quoted (c.name.getD "?")))]

/-- The text for what a feature does. -/
def action : FeatureAction → String
  | .hook _ => "Hook(..)"
  | .constant v => tagged "Default" (value v)

end Inspection

end VersionedModel
