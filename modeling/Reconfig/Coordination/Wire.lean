/-
Verdicts and outcomes as documents.
-/
import Reconfig.Coordination.RecoveryPass
import Reconfig.Protocol.Wire

namespace Reconfig

open Json

def Span.toJson (s : Span) : Json :=
  .obj [("secs", .ofNat s.seconds), ("millis", .ofNat s.subsecond)]

def addressList (nodes : List Address) : Json := .arr (nodes.map Address.toJson)

def stateList (nodes : List (Address × LogicalState)) : Json :=
  .arr (nodes.map fun entry => .arr [entry.1.toJson, entry.2.toJson])

def nodeState? : Json → Option (Address × LogicalState)
  | .arr [node, state] => do pure (← Address.ofJson? node, ← LogicalState.ofJson? state)
  | _ => none

namespace ClusterState

/-- What the state says besides its name. -/
def fields : ClusterState → List (String × Json)
  | .consistent version uuid =>
    [("version", .ofNat version), ("uuid", ofOption Uuid.toJson uuid)]
  | .partiallyCommitted uuid => [("uuid", uuid.toJson)]
  | .partiallyPrepared uuid => [("uuid", uuid.toJson)]
  | .partiallyRolledBack uuid => [("uuid", uuid.toJson)]
  | .lagging behind => [("behind", addressList behind)]
  | .unrecoverable why => [("reason", .str why.text)]
  | .undetermined => []

def toJson (s : ClusterState) : Json :=
  .obj [("display", .str s.text), ("fields", .obj s.fields),
    ("repair", ofOption ChangeState.toJson s.suggestedRepair),
    ("under_repair", ofOption Uuid.toJson s.changeUnderRepair)]

end ClusterState

/-- A report, in which a response can be found by the address of its node. -/
def Report.toJson (r : Report) : Json :=
  .obj [("state", r.state.toJson), ("consistent", .bool r.isConsistent),
    ("all_reachable", .bool r.allReachable),
    ("suggested", ofOption ChangeState.toJson r.state.suggestedRepair),
    ("responses", .arr (r.responses.map fun entry =>
      .arr [entry.1.toJson, ofOption Uuid.toJson entry.2.latestUuid])),
    ("unreachable", .arr (r.unreachable.map fun entry =>
      .arr [entry.1.toJson, .str entry.2.text])),
    ("response", ofOption (fun entry => .bool (r.response? entry.1).isSome) r.responses.head?)]

def ChangeOutcome.toJson (o : ChangeOutcome) : Json :=
  .obj [("uuid", o.uuid.toJson), ("version", .ofNat o.version), ("nodes", addressList o.nodes)]

def RecoveryOutcome.toJson (o : RecoveryOutcome) : Json :=
  .obj [("uuid", ofOption Uuid.toJson o.uuid), ("target", o.target.toJson),
    ("forced", addressList o.forced), ("skipped", addressList o.skipped)]

end Reconfig
