import VersionedModel.Codec.Serializer

/-!
# Codecs

A codec selects serializers for models, from what it is told about the model. What a model is
dumped and loaded through is a codec, or a serializer that is scoped to the model.
-/

namespace VersionedModel

/-- What a codec is told about a model. -/
structure ModelContext where
  /-- Its name. -/
  name : String
  /-- The components that take part, by name. -/
  components : List (String × Component Schema)
  /-- Its own values for fields that were never set. -/
  defaults : Dict Value

/-- Selects serializers for models. -/
inductive Codec where
  /-- JSON, perhaps with features. -/
  | json (features : Option Composition)
  /-- A format without serializers. -/
  | refusing (format : Format)

namespace Codec

/-- The format of a codec. -/
def format : Codec → Format
  | json _ => .json
  | refusing format => format

/-- The serializer for a model. -/
def serializerFor (c : Codec) (m : ModelContext) (settings : Settings) :
    Except Error Serializer :=
  match c with
  | refusing format => .error (.unsupportedFormat format)
  | json features =>
    let fields := m.components.map fun e => (e.1, Shape.ofComponent e.2)
    let plain := Serializer.json m.name fields settings
    .ok (features.elim plain plain.composed)

end Codec

/-- What a model is dumped and loaded through. -/
inductive Target where
  /-- A codec, which selects the serializer. -/
  | codec (c : Codec)
  /-- A serializer, which is scoped to the model. -/
  | serializer (s : Serializer)

/-- The serializer for a model. -/
def Target.resolve (t : Target) (m : ModelContext) (settings : Settings) :
    Except Error Serializer :=
  match t with
  | .codec c => c.serializerFor m settings
  | .serializer s => .ok (s.forPart m.name (some (.map m.defaults.toList)) settings)

end VersionedModel
