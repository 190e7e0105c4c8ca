import Reconfig.Dict
import Reconfig.Text.Blank
import Reconfig.Text.Utf8
import Reconfig.Text.Hex
import Reconfig.Text.Decimal
import Reconfig.Number.Power
import Reconfig.Number.Binary64
import Reconfig.Number.Layout
import Reconfig.Json.Basic
import Reconfig.Json.Printer
import Reconfig.Json.Parser
import Reconfig.Json.Canonical
import Reconfig.Json.Fields
import Reconfig.Digest.Crc32
import Reconfig.Digest.Blake3
import Reconfig.Digest.Chain
import Reconfig.Uuid
import Reconfig.Time.Span
import Reconfig.Time.Timestamp
import Reconfig.Topology.Cluster
import Reconfig.Topology.Change
import Reconfig.Topology.Validation
import Reconfig.Topology.Wire
import Reconfig.Text.Hidden
import Reconfig.Text.Escaped
import Reconfig.Protocol.Address
import Reconfig.Protocol.Message
import Reconfig.Protocol.Failure
import Reconfig.Error
import Reconfig.Protocol.Wire
import Reconfig.Protocol.Reading
import Reconfig.Store.Value
import Reconfig.Store.ChangeSet
import Reconfig.Store.Frame
import Reconfig.Store.ChangeLog
import Reconfig.Store.Backend
import Reconfig.Participant.NodeState
import Reconfig.Participant.ChangeRequest
import Reconfig.Participant.Edit
import Reconfig.Participant.Processor
import Reconfig.Participant.Basic
import Reconfig.Coordination.Analysis
import Reconfig.Coordination.Pass
import Reconfig.Coordination.ChangePass
import Reconfig.Coordination.RecoveryPass
import Reconfig.Coordination.Fleet
import Reconfig.Coordination.Operator
import Reconfig.Coordination.Restart
import Reconfig.Coordination.Retry
import Reconfig.Json.Texts
import Reconfig.Protocol.Summary
import Reconfig.Coordination.Wire
import Reconfig.Service.Registry
import Reconfig.Toml.Moment
import Reconfig.Toml.Scalar
import Reconfig.Toml.Quoted
import Reconfig.Toml.Table
import Reconfig.Toml.Document
import Reconfig.Settings.Path
import Reconfig.Settings.Environment
import Reconfig.Settings.File
import Reconfig.Settings.Endpoint
import Reconfig.Settings.Coercion
import Reconfig.Settings.Basic
import Reconfig.Service.Holdings
import Reconfig.Service.Startup
import Reconfig.Service.Http
import Reconfig.Service.Node
import Reconfig.Service.Host
import Reconfig.Store.Damage
import Reconfig.Store.Handle
import Reconfig.Proofs.Uuid
import Reconfig.Proofs.Json.Canonical
import Reconfig.Proofs.Json.RoundTrip
import Reconfig.Proofs.Outcome
import Reconfig.Proofs.Topology.Documents
import Reconfig.Proofs.Time.StoredText
import Reconfig.Proofs.Store.ReadBack
import Reconfig.Proofs.Store.Frames
import Reconfig.Proofs.Store.Recovery
import Reconfig.Proofs.Topology.StoredForm
import Reconfig.Proofs.Participant.Request
import Reconfig.Proofs.Participant.History
import Reconfig.Proofs.Participant.Step
import Reconfig.Proofs.Participant.Handling
import Reconfig.Proofs.Participant.Invariant
import Reconfig.Proofs.Participant.Answering
import Reconfig.Proofs.Coordination.Calls
import Reconfig.Proofs.Coordination.Courses
import Reconfig.Proofs.Coordination.Histories
import Reconfig.Proofs.Coordination.Verdicts
import Reconfig.Proofs.Coordination.Provenance
import Reconfig.Proofs.Coordination.Agreement
import Reconfig.Proofs.Coordination.Interruption
import Reconfig.Proofs.Coordination.Repair
import Reconfig.Proofs.Coordination.Convergence
import Reconfig.Proofs.Coordination.Resolution
import Reconfig.Proofs.Coordination.Succession
import Reconfig.Proofs.Participant.Restart
import Reconfig.Proofs.Participant.Replay
import Reconfig.Proofs.Participant.Refusal
import Reconfig.Proofs.Participant.Participation
import Reconfig.Proofs.Coordination.Phases
import Reconfig.Proofs.Coordination.Aftermath
import Reconfig.Proofs.Coordination.Outcomes
import Reconfig.Proofs.Coordination.Progress
import Reconfig.Proofs.Coordination.Forcing
import Reconfig.Proofs.Coordination.Recoveries
import Reconfig.Proofs.Coordination.Conflicts
import Reconfig.Proofs.Coordination.Direction
import Reconfig.Proofs.Participant.Continuation
import Reconfig.Proofs.Participant.Acceptance
import Reconfig.Proofs.Participant.Fence
import Reconfig.Proofs.Participant.Permanence
import Reconfig.Proofs.Participant.Effect
import Reconfig.Proofs.Coordination.Forks
import Reconfig.Proofs.Participant.Availability
import Reconfig.Proofs.Participant.Twins
import Reconfig.Proofs.Coordination.Leftovers
import Reconfig.Proofs.Topology.WellFormed
import Reconfig.Proofs.Coordination.Peers
import Reconfig.Proofs.Coordination.Unhindered
import Reconfig.Proofs.Coordination.Operation
import Reconfig.Proofs.Digest.Crc32
import Reconfig.Proofs.Json.Extent
import Reconfig.Proofs.Json.Length
import Reconfig.Proofs.Store.Layout
import Reconfig.Proofs.Store.Image
import Reconfig.Proofs.Store.Tampering
import Reconfig.Proofs.Service.Activation
import Reconfig.Proofs.Service.FirstStart
import Reconfig.Proofs.Service.Foundings
import Reconfig.Proofs.Coordination.Standings
import Reconfig.Proofs.Coordination.CallOrder
import Reconfig.Proofs.Time.DocumentText
import Reconfig.Proofs.Json.Written
import Reconfig.Proofs.Topology.Written
import Reconfig.Proofs.Protocol.Written
import Reconfig.Proofs.Protocol.Texts
import Reconfig.Proofs.Topology.Nesting
import Reconfig.Proofs.Participant.Discovery
import Reconfig.Proofs.Topology.Shrinking
import Reconfig.Proofs.Participant.Hearing
import Reconfig.Proofs.Json.Size
import Reconfig.Proofs.Participant.WriteSize
import Reconfig.Proofs.Participant.Closable
import Reconfig.Proofs.Topology.Batches
import Reconfig.Proofs.Topology.SettingsOnly
import Reconfig.Proofs.Topology.Inverses
import Reconfig.Proofs.Service.Ownership
import Reconfig.Proofs.Coordination.Waiting
import Reconfig.Proofs.Coordination.Retrying
import Reconfig.Proofs.Time.SpanText
import Reconfig.Proofs.Participant.Edits
