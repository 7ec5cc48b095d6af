import VersionedModel.Codec.Shape
import VersionedModel.Composition
import VersionedModel.Json.Printer
import VersionedModel.Json.Written

/-!
# Serializers

A serializer turns the state of one model into a payload of bytes and a payload into raw data for
that model. The JSON serializer knows the shapes of the model's fields. A composed serializer runs
the features of a composition around another one: before dumping on the state, after dumping and
before loading on the payload as bytes, and after loading on the raw data.
-/

namespace VersionedModel

/-- The setting that asks for indented JSON. -/
def prettyKey : String := "pretty"

/-- The setting that asks for the state to be wrapped in an object under the model's name. -/
def envelopeKey : String := "envelope"

/-- Turns states into payloads and back. -/
inductive Serializer where
  /-- JSON, for a model of some name with fields of some shapes, under settings of its own. -/
  | json (name : String) (fields : List (String × Shape)) (settings : Settings)
  /-- Another serializer with features around it. -/
  | composed (inner : Serializer) (features : Composition)

namespace Serializer

/-! ### JSON -/

/-- The payload for a state, which must be a map. -/
def encodeJson (name : String) (settings : Settings) (state : Value) :
    Except Error (List UInt8) :=
  match state with
  | .map _ =>
    let tree := state.toJson
    let tree := if Settings.flag settings envelopeKey then .object [(name, tree)] else tree
    let style : Json.Style := if Settings.flag settings prettyKey then .pretty else .compact
    .ok (Json.bytesOf (tree.render style))
  | v => .error (.encode .json (.notMapping v.kind))

/-- The tree inside an envelope. -/
def openEnvelope (name : String) : Json → Except Error Json
  | .object members =>
    match Entries.get? name members with
    | some tree => .ok tree
    | none => .error (.decode .json (.noEnvelopeKey name))
  | _ => .error (.decode .json .noEnvelope)

/-- The raw data in a payload. -/
def decodeJson (name : String) (fields : List (String × Shape)) (settings : Settings)
    (payload : List UInt8) : Except Error Value := do
  match Json.ofBytes payload with
  | none => throw (.decode .json .malformed)
  | some tree =>
    let tree ← if Settings.flag settings envelopeKey then openEnvelope name tree else pure tree
    return (Shape.model fields).restore (.ofJson tree)

/-! ### Features -/

/-- The bytes that a feature gave. -/
def expectBytes (operation : String) : Value → Except Error (List UInt8)
  | .bytes bs => .ok bs
  | v => .error (.notBytes operation v.kind)

/-- Run features on a payload as bytes, if there are any. -/
def throughBytes (operation : String) (features : List Feature) (payload : List UInt8)
    (settings : Settings) : Except Error (List UInt8) :=
  if features.isEmpty then .ok payload
  else do expectBytes operation (← Feature.runAll features (.bytes payload) settings)

/-! ### Any serializer -/

/-- Turn a state into a payload. -/
def encode : Serializer → Value → Settings → Except Error (List UInt8)
  | json name _ own, state, settings => encodeJson name (own.overlay settings) state
  | composed inner features, state, settings => do
    let state ← features.applyBefore dumpOperation state settings
    let payload ← inner.encode state settings
    throughBytes dumpOperation (features.hooksAfter dumpOperation) payload settings

/-- Turn a payload into raw data. -/
def decode : Serializer → List UInt8 → Settings → Except Error Value
  | json name fields own, payload, settings =>
    decodeJson name fields (own.overlay settings) payload
  | composed inner features, payload, settings => do
    let payload ←
      throughBytes loadOperation (features.hooksBefore loadOperation) payload settings
    let raw ← inner.decode payload settings
    features.applyAfter loadOperation raw settings

/-- The fields of a part, as far as its defaults tell. -/
def fieldsOfDefault : Option Value → List (String × Shape)
  | some (.map entries) => Shape.ofEntries entries
  | _ => []

/-- The serializer for a part of some name, with settings laid over those that it has. -/
def forPart : Serializer → String → Option Value → Settings → Serializer
  | json _ _ own, name, default, settings =>
    json name (fieldsOfDefault default) (own.overlay settings)
  | composed inner features, name, default, settings =>
    composed (inner.forPart name default settings) features

end Serializer

end VersionedModel
