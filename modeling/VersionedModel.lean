import VersionedModel.Text.Identifier
import VersionedModel.Text.Quoted
import VersionedModel.Text.Base64
import VersionedModel.Binary64.Shortest
import VersionedModel.Value.Compare
import VersionedModel.Path
import VersionedModel.Settings
import VersionedModel.State
import VersionedModel.Json.Written
import VersionedModel.Json.Printer
import VersionedModel.Portable
import VersionedModel.Rule
import VersionedModel.Workspace.Lifetime
import VersionedModel.Schema.Build
import VersionedModel.Definition.Json
import VersionedModel.Definition.Build
import VersionedModel.Model.Storage
import VersionedModel.Model.Basic
import VersionedModel.Model.Snapshot
import VersionedModel.Model.Update
import VersionedModel.Model.Order
import VersionedModel.Model.Data
import VersionedModel.Inspection
import VersionedModel.Feature.Basic
import VersionedModel.Feature.Table
import VersionedModel.Feature.Hook
import VersionedModel.Capability
import VersionedModel.Composition
import VersionedModel.Codec.Shape
import VersionedModel.Codec.Serializer
import VersionedModel.Codec.Basic
import VersionedModel.Model.Transfer
import VersionedModel.Proofs.Workspace.Ownership
import VersionedModel.Proofs.Workspace.Naming
import VersionedModel.Proofs.Bindings.WellFormed
import VersionedModel.Proofs.Bindings.Growth
import VersionedModel.Proofs.Schema.Compilation
import VersionedModel.Proofs.Schema.Declarations
import VersionedModel.Proofs.Model.Snapshots
import VersionedModel.Proofs.Model.Versions
import VersionedModel.Proofs.Model.Agreement
import VersionedModel.Proofs.Model.FailedUpdates
import VersionedModel.Proofs.Binary64.Reading
import VersionedModel.Proofs.Model.States
import VersionedModel.Proofs.Model.Restoring
import VersionedModel.Proofs.Model.Sequences
import VersionedModel.Proofs.Model.SharedNames
import VersionedModel.Proofs.Codec.Positions
import VersionedModel.Proofs.Codec.AliasKeys
import VersionedModel.Proofs.Codec.Payloads
import VersionedModel.Proofs.Composition.Prerequisites
import VersionedModel.Proofs.Composition.RunOrder
import VersionedModel.Proofs.Definition.Exporting
import VersionedModel.Proofs.Composition.Precedence
import VersionedModel.Proofs.Binary64.Order
import VersionedModel.Proofs.Value.Order
import VersionedModel.Proofs.Value.Transitivity
import VersionedModel.Proofs.State.Order
import VersionedModel.Proofs.State.Transitivity
import VersionedModel.Proofs.Model.Order
import VersionedModel.Proofs.Definition.Rereading
import VersionedModel.Proofs.Model.PathAccess
import VersionedModel.Proofs.Model.PermissiveLoads
import VersionedModel.Proofs.Model.Clearing
import VersionedModel.Proofs.Schema.FailedBuilds
import VersionedModel.Proofs.Schema.Buildable
import VersionedModel.Proofs.Codec.Targets
import VersionedModel.Proofs.Model.Gaps
import VersionedModel.Proofs.Model.Defaults
import VersionedModel.Proofs.Path
import VersionedModel.Proofs.Value.JsonForm
import VersionedModel.Proofs.State.Equality
import VersionedModel.Proofs.Model.TypedStates
import VersionedModel.Proofs.Bindings.Registers
import VersionedModel.Proofs.Model.CellHistories
