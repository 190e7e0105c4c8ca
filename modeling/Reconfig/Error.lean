/-
What can go wrong, by kind, and how it is reported.
-/
import Reconfig.Protocol.Failure
import Reconfig.Time.Span

namespace Reconfig

inductive Error where
  | io (detail : String)
  | serialization (detail : String)
  | notFound (what : String)
  | corrupted (what : String)
  | checksumMismatch (expected actual : String)
  | changeLog (what : String)
  | invalidChange (what : String)
  | invalidTopology (what : String)
  | capacityExceeded (what : String)
  | changeInProgress (nodes : String)
  | nodesUnreachable (nodes : String)
  | prepareFailed (node reason : String)
  /-- Some nodes have committed the change and others may not have. -/
  | partialCommit (uuid : Uuid) (failures : List NodeFailure)
  | inconsistent (what : String)
  | unrecoverable (what : String)
  | aggregate (failures : List NodeFailure)
  | restartTimeout (target : String) (waitedSeconds : Nat) (missing : List String)
  | http (what : String)
  | connectionFailed (what : String)
  | invalidConfig (what : String)
  | internal (what : String)
  | timeout (what : String)
  | other (what : String)
deriving DecidableEq

namespace Error

def message : Error → String
  | .io detail => "I/O error: " ++ detail
  | .serialization detail => "Serialization error: " ++ detail
  | .notFound what => "Key not found: " ++ what
  | .corrupted what => "Corrupted data: " ++ what
  | .checksumMismatch expected actual => s!"Checksum mismatch: expected {expected}, got {actual}"
  | .changeLog what => "Change log error: " ++ what
  | .invalidChange what => "Invalid change: " ++ what
  | .invalidTopology what => "Invalid topology: " ++ what
  | .capacityExceeded what => "Capacity exceeded: " ++ what
  | .changeInProgress nodes => "Change already in progress on " ++ nodes
  | .nodesUnreachable nodes => "Nodes not reachable: " ++ nodes
  | .prepareFailed node reason => s!"Prepare failed on {node}: {reason}"
  | .partialCommit uuid failures =>
    s!"Change {uuid} partially committed, repair required: " ++
      Text.listed (failures.map Detailed.failure)
  | .inconsistent what => "Cluster is not consistent: " ++ what
  | .unrecoverable what => "Unrecoverable configuration divergence: " ++ what
  | .aggregate failures =>
    s!"{failures.length} node(s) failed: {NodeFailure.describe failures}"
  | .restartTimeout target waited missing =>
    s!"Nodes did not reach {target} within {waited}s: " ++ Text.listed (missing.map Text.escaped)
  | .http what => "HTTP error: " ++ what
  | .connectionFailed what => "Connection failed: " ++ what
  | .invalidConfig what => "Invalid configuration: " ++ what
  | .internal what => "Internal error: " ++ what
  | .timeout what => "Operation timeout: " ++ what
  | .other what => what

def kind : Error → String
  | .io _ => "Io"
  | .serialization _ => "Serialization"
  | .notFound _ => "NotFound"
  | .corrupted _ => "Corrupted"
  | .checksumMismatch .. => "ChecksumMismatch"
  | .changeLog _ => "ChangeLog"
  | .invalidChange _ => "InvalidChange"
  | .invalidTopology _ => "InvalidTopology"
  | .capacityExceeded _ => "CapacityExceeded"
  | .changeInProgress _ => "ChangeInProgress"
  | .nodesUnreachable _ => "NodesUnreachable"
  | .prepareFailed .. => "PrepareFailed"
  | .partialCommit .. => "PartialCommit"
  | .inconsistent _ => "Inconsistent"
  | .unrecoverable _ => "Unrecoverable"
  | .aggregate _ => "Aggregate"
  | .restartTimeout .. => "RestartTimeout"
  | .http _ => "Http"
  | .connectionFailed _ => "ConnectionFailed"
  | .invalidConfig _ => "InvalidConfig"
  | .internal _ => "Internal"
  | .timeout _ => "Timeout"
  | .other _ => "Other"

def ofKind? (kind text : String) : Option Error :=
  [.io text, .serialization text, .notFound text, .corrupted text, .changeLog text,
    .invalidChange text, .invalidTopology text, .capacityExceeded text, .changeInProgress text,
    .nodesUnreachable text, .inconsistent text, .unrecoverable text, .http text,
    .connectionFailed text, .invalidConfig text, .internal text, .timeout text,
    .other text].find? fun e : Error => e.kind == kind

/-- Whether the same call may succeed later. -/
def isRetryable : Error → Bool
  | .timeout _ => true
  | .connectionFailed _ => true
  | .nodesUnreachable _ => true
  | .prepareFailed .. => true
  | _ => false

/-- Whether the cluster needs a repair after the error. -/
def needsRepair : Error → Bool
  | .partialCommit .. => true
  | _ => false

def status : Error → Nat
  | .notFound _ => 404
  | .invalidConfig _ => 400
  | .invalidChange _ => 400
  | .invalidTopology _ => 400
  | .changeInProgress _ => 409
  | .inconsistent _ => 409
  | .timeout _ => 408
  | .nodesUnreachable _ => 503
  | _ => 500

def ofObjection : Objection → Error
  | .change fault => .invalidChange fault.message
  | .form fault => .invalidTopology fault.message
  | .capacity fault => .capacityExceeded fault.message

def ofSpan (fault : Span.Fault) : Error := .invalidConfig fault.message

end Error

/-- Reads a length of time from settings. -/
def Span.read (text : String) : Except Error Span := (Span.parse text).mapError Error.ofSpan

namespace Failures

def toResult (f : Failures) : Except Error Unit :=
  if f.isEmpty then .ok () else .error (.aggregate f.list)

/-- The result of committing a change on every node. -/
def toCommitResult (f : Failures) (uuid : Uuid) : Except Error Unit :=
  if f.isEmpty then .ok () else .error (.partialCommit uuid f.list)

end Failures
end Reconfig
