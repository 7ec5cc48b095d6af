import VersionedModel.Text.Identifier
import VersionedModel.Text.Quoted
import VersionedModel.Value.Basic

/-!
# Errors

Everything that can go wrong, as causes. `Error.message` puts a cause into words, and
`Error.isConstruction` tells the errors of declaring a stack, a schema or a capability from those
of using one.
-/

namespace VersionedModel

/-- The name of an external encoding; any text will do. -/
structure Format where
  /-- The name. -/
  name : String
  deriving DecidableEq, Repr

namespace Format

/-- JSON. -/
def json : Format := ⟨"application/json"⟩

/-- MessagePack. -/
def msgpack : Format := ⟨"application/msgpack"⟩

/-- Data that was never encoded, for conversions that stay inside the value tree. -/
def value : Format := ⟨"application/x-modelcast-value"⟩

end Format

/-- What is wrong with a name or a path. -/
inductive NameError where
  /-- A component of a path is no identifier; positions count from zero. -/
  | component (text : String) (position : Nat) (fault : Text.IdentifierFault)
  /-- A component of the given kind entered a stack without a name. -/
  | unnamed (kind : String)
  /-- A path has no components. -/
  | emptyPath
  deriving DecidableEq, Repr

/-- What is wrong with a payload. -/
inductive DecodeError where
  /-- The payload is not a text of its format. -/
  | malformed
  /-- The payload is well formed but describes something else. -/
  | mismatch
  /-- The enveloping object lacks the model's name. -/
  | noEnvelopeKey (name : String)
  /-- The payload should be an enveloping object. -/
  | noEnvelope
  /-- Any other reason. -/
  | other (detail : String)
  deriving DecidableEq, Repr

/-- What is wrong with a state. -/
inductive EncodeError where
  /-- The state is not a mapping. -/
  | notMapping (kind : ValueKind)
  /-- A mapping has keys that are no texts. -/
  | badKey
  /-- Any other reason. -/
  | other (detail : String)
  deriving DecidableEq, Repr

/-- Everything that can go wrong. -/
inductive Error where
  /-- A name or a path is not made of identifiers. -/
  | invalidName (cause : NameError)
  /-- A component that may not be copied belongs to a stack already. -/
  | alreadyOwned (component : String)
  /-- A name is bound twice. -/
  | duplicateField (name : String)
  /-- An alias points at a name that is not bound. -/
  | unknownAliasTarget (name target : String)
  /-- An alias leads back to itself. -/
  | aliasCycle (name : String)
  /-- A feature has both a hook and a constant. -/
  | featureConflict (feature : String)
  /-- A feature's prerequisite is nowhere provided. -/
  | missingPrerequisite (feature requires : String)
  /-- A capability's name is taken. -/
  | duplicateCapability (name : String)
  /-- A field has neither a value nor a default. -/
  | missingValue (field kind : String)
  /-- A decoded payload is neither a sequence nor a mapping. -/
  | unsupportedPayload (kind : ValueKind)
  /-- A model does not bind a name. -/
  | unknownField (name : String)
  /-- A field holds a value and no model. -/
  | notAModel (field : String)
  /-- A payload cannot be decoded. -/
  | decode (format : Format) (cause : DecodeError)
  /-- A state cannot be encoded. -/
  | encode (format : Format) (cause : EncodeError)
  /-- A driver does not handle a format. -/
  | unsupportedFormat (format : Format)
  /-- A component without a name cannot be described. -/
  | unnamedExport (kind : String)
  /-- A codec has no feature of a name. -/
  | noFeature (codec feature : String)
  /-- A hook on payloads returned something else than bytes. -/
  | notBytes (operation : String) (kind : ValueKind)
  /-- A file cannot be read. -/
  | unreadable (file : String)
  /-- A workspace has no component with an identity. -/
  | unknownComponent (id : Nat)
  /-- A workspace has no stack with an identity. -/
  | unknownStack (id : Nat)
  /-- A stack holds itself through nested models, so there is no end to describing it. -/
  | circularStack (id : Nat)
  /-- A hook failed for a reason of its own. -/
  | other (message : String)
  deriving DecidableEq, Repr

/-- The reason in words. -/
def Text.IdentifierFault.message : Text.IdentifierFault → String
  | .empty => "empty name"
  | .badStart => "must start with a letter or underscore followed by letter/digit"
  | .badCharacter c => "invalid character '" ++ c.toString ++ "' in identifier"

/-- The reason in words. -/
def NameError.message : NameError → String
  | .component text position fault =>
    "invalid field name '" ++ text ++ "' at position " ++ toString position ++ ": " ++ fault.message
  | .unnamed kind => "invalid field path: " ++ kind ++ " component has no name"
  | .emptyPath => "invalid field path: empty field path"

/-- The reason in words. -/
def DecodeError.message : DecodeError → String
  | .malformed => "malformed payload"
  | .mismatch => "payload of another type"
  | .noEnvelopeKey name => "missing envelope key " ++ Text.quoted name
  | .noEnvelope => "enveloped payload is not an object"
  | .other detail => detail

/-- The reason in words. -/
def EncodeError.message : EncodeError → String
  | .notMapping kind => "expected a mapping state, got " ++ kind.name
  | .badKey => "key must be a string"
  | .other detail => detail

namespace Error

open Text (quoted)

/-- The error in words. -/
def message : Error → String
  | invalidName cause => "invalid name: " ++ cause.message
  | alreadyOwned component =>
    "component " ++ quoted component ++ " is already owned by another stack"
  | duplicateField name => "duplicate field " ++ quoted name
  | unknownAliasTarget name target =>
    "alias " ++ quoted name ++ " refers to unknown field " ++ quoted target
  | aliasCycle name => "alias " ++ quoted name ++ " forms a cycle"
  | featureConflict feature =>
    "feature " ++ quoted feature ++ " can't simultaneously hold a hook and a default value"
  | missingPrerequisite feature requires =>
    "feature " ++ quoted feature ++ " requires " ++ quoted requires ++ ", which is not provided"
  | duplicateCapability name => "capability " ++ quoted name ++ " is already registered"
  | missingValue field kind => "missing required " ++ kind ++ " value for field " ++ quoted field
  | unsupportedPayload kind => "unsupported state type: " ++ kind.name
  | unknownField name => "unknown field " ++ quoted name
  | notAModel field => "field " ++ quoted field ++ " does not refer to a model"
  | decode format cause => "decode error (" ++ format.name ++ "): " ++ cause.message
  | encode format cause => "encode error (" ++ format.name ++ "): " ++ cause.message
  | unsupportedFormat format => "unsupported format: " ++ format.name
  | unnamedExport kind => "cannot export unnamed " ++ kind ++ " component"
  | noFeature codec feature => codec ++ " has no feature " ++ quoted feature
  | notBytes operation kind =>
    operation ++ " hook returned " ++ kind.name ++ " where bytes were expected"
  | unreadable file => "reading " ++ file ++ " failed"
  | unknownComponent id => "unknown component " ++ toString id
  | unknownStack id => "unknown stack " ++ toString id
  | circularStack id => "stack " ++ toString id ++ " holds itself"
  | other message => message

/-- The kind of the error in one word, for reports. -/
def label : Error → String
  | invalidName _ => "InvalidName"
  | alreadyOwned _ => "AlreadyOwned"
  | duplicateField _ => "DuplicateField"
  | unknownAliasTarget .. => "UnknownAliasTarget"
  | aliasCycle _ => "AliasCycle"
  | featureConflict _ => "FeatureConflict"
  | missingPrerequisite .. => "MissingPrerequisite"
  | duplicateCapability _ => "DuplicateCapability"
  | missingValue .. => "MissingValue"
  | unsupportedPayload _ => "UnsupportedPayload"
  | unknownField _ => "UnknownField"
  | notAModel _ => "NotAModel"
  | decode .. => "Decode"
  | encode .. => "Encode"
  | unsupportedFormat _ => "UnsupportedFormat"
  | unnamedExport _ | noFeature .. | notBytes .. | unreadable _ | unknownComponent _
  | unknownStack _ | circularStack _ | other _ => "Other"

/-- Whether the error belongs to declaring things rather than to using them. -/
def isConstruction : Error → Bool
  | invalidName _ | alreadyOwned _ | duplicateField _ | unknownAliasTarget .. | aliasCycle _
  | featureConflict _ | missingPrerequisite .. | duplicateCapability _ => true
  | _ => false

end Error

end VersionedModel
