import VersionedModel.Json.Basic
import VersionedModel.Settings
import VersionedModel.Value.Json

/-!
# Definitions

A definition describes a stack of components as data, so that a schema can be built from it and
described by it. It knows the three rules that have names, and leaf components of every kind but
null.
-/

namespace VersionedModel

/-- The rules that have names. -/
inductive RuleName where
  /-- The version range. -/
  | version
  /-- All flags switched on. -/
  | flags
  /-- No condition. -/
  | always
  deriving DecidableEq, Repr

/-- The kinds of leaf components that a definition can describe. -/
abbrev LeafKind := { k : ValueKind // k ≠ .null }

/-- The nearest describable kind: a component of kind null is described as one of any kind. -/
def LeafKind.ofKind (k : ValueKind) : LeafKind :=
  if h : k = .null then ⟨.any, by decide⟩ else ⟨k, h⟩

theorem LeafKind.ofKind_val (kind : LeafKind) : LeafKind.ofKind kind.val = kind :=
  dif_neg kind.property

theorem LeafKind.val_ofKind {k : ValueKind} (h : k ≠ .null) : (LeafKind.ofKind k).val = k := by
  rw [LeafKind.ofKind, dif_neg h]

/-- What all component definitions share. -/
structure Terms where
  /-- The name. -/
  name : String
  /-- The first version that the component takes part in. -/
  since : Option Int64
  /-- The last version that the component takes part in. -/
  upTo : Option Int64
  /-- The flags that the component wants. -/
  flags : List String
  deriving DecidableEq, Repr

mutual

/-- A component as data. -/
inductive ComponentDefinition where
  /-- A field with a value of a kind, perhaps a default, and whether it refuses to be copied. -/
  | leaf (kind : LeafKind) (terms : Terms) (default : Option Json) (exclusive : Bool)
  /-- A field with a nested model. -/
  | model (terms : Terms) (model : StackDefinition)

/-- A component stack as data. -/
inductive StackDefinition where
  /-- A definition from its parts. -/
  | mk (name : String) (settings : Dict Json) (rule : RuleName)
      (components : List ComponentDefinition)

end

namespace ComponentDefinition

/-- The terms. -/
def terms : ComponentDefinition → Terms
  | leaf _ t _ _ => t
  | model t _ => t

/-- The name. -/
def name (d : ComponentDefinition) : String :=
  d.terms.name

end ComponentDefinition

namespace StackDefinition

/-- A definition without components, with the version rule. -/
def new (name : String) : StackDefinition :=
  mk name ∅ .version []

/-- Add a component at the end. -/
def component (d : StackDefinition) (c : ComponentDefinition) : StackDefinition :=
  match d with
  | mk name settings rule components => mk name settings rule (components ++ [c])

/-- The name. -/
def name : StackDefinition → String
  | mk name _ _ _ => name

/-- The rule. -/
def rule : StackDefinition → RuleName
  | mk _ _ rule _ => rule

/-- The components, in order. -/
def components : StackDefinition → List ComponentDefinition
  | mk _ _ _ components => components

/-- The settings as JSON. -/
def jsonSettings : StackDefinition → Dict Json
  | mk _ settings _ _ => settings

/-- The settings. -/
def settings (d : StackDefinition) : Settings :=
  d.jsonSettings.map Value.ofJson

end StackDefinition

/-! ### Equality of data -/

/-- Equality of optional JSON data. -/
def Json.sameOption : Option Json → Option Json → Bool
  | none, none => true
  | some a, some b => a.same b
  | _, _ => false

mutual

/-- Equality of data. -/
def ComponentDefinition.same : ComponentDefinition → ComponentDefinition → Bool
  | .leaf k t d x, .leaf k' t' d' x' => k == k' && t == t' && Json.sameOption d d' && x == x'
  | .model t m, .model t' m' => t == t' && m.same m'
  | _, _ => false

/-- Equality of data, component by component. -/
def ComponentDefinition.sameList :
    List ComponentDefinition → List ComponentDefinition → Bool
  | [], [] => true
  | a :: as, b :: bs => a.same b && ComponentDefinition.sameList as bs
  | _, _ => false

/-- Equality of data. -/
def StackDefinition.same : StackDefinition → StackDefinition → Bool
  | .mk n s r cs, .mk n' s' r' cs' =>
    n == n' && Json.sameMembers s.toList s'.toList && r == r' &&
      ComponentDefinition.sameList cs cs'

end

end VersionedModel
