/-
The pass that repairs a change which another pass left behind.

A change that some node has committed can only be committed, and one that some
node has rolled back can only be rolled back. A change that is merely prepared
may go either way, but it is not committed where a node never prepared it.
-/
import Reconfig.Coordination.ChangePass

namespace Reconfig

structure RecoveryOutcome where
  uuid : Option Uuid
  target : ChangeState
  forced : List Address
  /-- The nodes that did not answer. -/
  skipped : List Address
deriving DecidableEq

/-- What a recovery does about a state. -/
inductive RecoveryPlan where
  | nothing
  | resolve (uuid : Uuid)
deriving DecidableEq

namespace Report

def withoutLatest (r : Report) (uuid : Uuid) : Snapshots :=
  r.responses.filter fun entry => entry.2.latestUuid != some uuid

/-- What can be done to bring the change in flight to the target. -/
def recoveryPlan (r : Report) (target : ChangeState) : Except Error RecoveryPlan :=
  let cannotForce (uuid : Uuid) : Error :=
    .inconsistent s!"{r.state}: cannot force change {uuid} to {target}"
  match r.state with
  | .consistent .. => .ok .nothing
  | .unrecoverable why => .error (.unrecoverable why.text)
  | .undetermined => .error (.nodesUnreachable "no node answered discovery")
  | .lagging behind => .error (.inconsistent (ClusterState.lagging behind).text)
  | .partiallyCommitted uuid =>
    if target = .committed then .ok (.resolve uuid) else .error (cannotForce uuid)
  | .partiallyRolledBack uuid =>
    if target = .rolledBack then .ok (.resolve uuid) else .error (cannotForce uuid)
  | .partiallyPrepared uuid =>
    let missing := r.withoutLatest uuid
    if target = .committed ∧ missing ≠ [] then
      .error (.inconsistent (s!"{r.state}: cannot commit change {uuid}, never prepared on " ++
        joined (missing.map (·.1.text))))
    else .ok (.resolve uuid)

/-- The nodes that hold the change as prepared, with the number of messages that
they have accepted. -/
def holding (r : Report) (uuid : Uuid) : List (Address × Nat) :=
  (r.responses.filter fun entry =>
    entry.2.mode == .prepared && entry.2.latestUuid == some uuid).map
      fun entry => (entry.1, entry.2.count)

end Report

namespace RecoveryPass

/-- Forces the change on every node, and tells which nodes it was forced on and
which failed. -/
def forceAll (sender : Sender) (uuid : Uuid) (target : ChangeState)
    (forced : List Address) (failures : Failures) :
    List (Address × Nat) → Pass (List Address × Failures)
  | [] => pure (forced, failures)
  | (node, count) :: rest => do
    match ← Pass.call node (.force ⟨sender.context count, uuid, target⟩) with
    | .ok () => forceAll sender uuid target (forced ++ [node]) failures rest
    | .error e => forceAll sender uuid target forced (failures.record node .force e) rest

end RecoveryPass

/-- Brings the change in flight to the target on every node that answers. -/
def recoveryPass (sender : Sender) (nodes : List Address) (target : ChangeState) :
    Pass (Except Error RecoveryOutcome) := do
  if target = .prepared then
    pure (.error (.invalidConfig "repair target must be COMMITTED or ROLLED_BACK"))
  else
    let report ← Pass.check nodes
    let skipped := report.unreachable.map (·.1)
    match report.recoveryPlan target with
    | .error e => pure (.error e)
    | .ok .nothing => pure (.ok ⟨none, target, [], skipped⟩)
    | .ok (.resolve uuid) => do
      let (forced, failures) ←
        RecoveryPass.forceAll sender uuid target [] .none (report.holding uuid)
      pure (failures.toResult.map fun () => ⟨some uuid, target, forced, skipped⟩)

/-- The target that a repair takes where none is given. -/
def ClusterState.repairTarget (state : ClusterState) : Except Error ChangeState :=
  match state.suggestedRepair with
  | some target => .ok target
  | none =>
    if state.isConsistent then .ok .committed
    else .error (.inconsistent s!"{state}: choose a repair direction explicitly")

/-- Repairs toward the given target, or else toward the one that the state of the
nodes suggests. -/
def repairPass (sender : Sender) (nodes : List Address) (forced : Option ChangeState) :
    Pass (Except Error RecoveryOutcome) := do
  match forced with
  | some target => recoveryPass sender nodes target
  | none => do
    let report ← Pass.check nodes
    match report.state.repairTarget with
    | .error e => pure (.error e)
    | .ok target => recoveryPass sender nodes target

end Reconfig
