/-
The pass that carries out a change.

All nodes prepare the change before the first one commits it. When a node does
not prepare it, the nodes that did roll it back. The active nodes come last, so
a failure is met as long as they are untouched.
-/
import Reconfig.Coordination.Pass
import Reconfig.Error

namespace Reconfig

structure Sender where
  host : String
  user : String
deriving DecidableEq

def Sender.context (s : Sender) (expected : Nat) : Context := ⟨expected, s.host, s.user⟩

structure ChangeOutcome where
  uuid : Uuid
  version : Nat
  nodes : List Address
deriving DecidableEq

/-- The nodes in the given order, but active ones after all others. -/
def passivesFirst (nodes : List (Address × LogicalState)) : List Address :=
  (nodes.filter (!·.2.isActive) ++ nodes.filter (·.2.isActive)).map (·.1)

def remark (node : Address) (note : String) : String := s!"{node} ({note})"

/-- The version of the next change, if the nodes are ready for one. -/
def Report.readyVersion (r : Report) : Except Error Nat :=
  let busy := r.responses.filter (·.2.mode != .accepting)
  if !r.allReachable then
    .error (.nodesUnreachable (joined (r.unreachable.map fun (node, e) => remark node e.text)))
  else if !busy.isEmpty then
    .error (.changeInProgress (joined (busy.map fun (node, s) =>
      match s.latestUuid with
      | some uuid => remark node uuid.text
      | none => node.text)))
  else
    match r.state with
    | .consistent version _ => .ok (version + 1)
    | .unrecoverable why => .error (.unrecoverable why.text)
    | other => .error (.inconsistent other.text)

/-- Each node with the number of messages that it has accepted. -/
def Report.counts (r : Report) (order : List Address) : Except Error (List (Address × Nat)) :=
  order.mapM fun node =>
    match r.response? node with
    | some s => .ok (node, s.count)
    | none => .error (.nodesUnreachable node.text)

namespace ChangePass

/-- Rolls the change back on each node. A node that does not answer is left to a
repair. -/
def rollbackAll (sender : Sender) (uuid : Uuid) : List (Address × Nat) → Pass Unit
  | [] => pure ()
  | (node, count) :: rest => do
    let _ ← Pass.call node (.rollback ⟨sender.context count, uuid⟩)
    rollbackAll sender uuid rest

/-- Commits the change on every node, whatever the others answer. -/
def commitAll (sender : Sender) (uuid : Uuid) (failures : Failures) :
    List (Address × Nat) → Pass Failures
  | [] => pure failures
  | (node, count) :: rest => do
    match ← Pass.call node (.commit ⟨sender.context count, uuid⟩) with
    | .ok () => commitAll sender uuid failures rest
    | .error e => commitAll sender uuid (failures.record node .commit e) rest

/-- Prepares the change on one node after the other. At the first failure the
nodes before it roll the change back. -/
def prepareAll (sender : Sender) (uuid : Uuid) (version : Nat) (change : Change)
    (prepared : List (Address × Nat)) : List (Address × Nat) → Pass (Except Error Unit)
  | [] => pure (.ok ())
  | (node, count) :: rest => do
    match ← Pass.call node (.prepare ⟨sender.context count, uuid, version, change⟩) with
    | .ok () =>
      prepareAll sender uuid version change (prepared ++ [(node, count + 1)]) rest
    | .error e => do
      rollbackAll sender uuid prepared
      pure (.error (.prepareFailed node.text e.text))

def carryOut (sender : Sender) (uuid : Uuid) (version : Nat) (change : Change)
    (counts : List (Address × Nat)) : Pass (Except Error Unit) := do
  match ← prepareAll sender uuid version change [] counts with
  | .error e => pure (.error e)
  | .ok () => do
    let failures ← commitAll sender uuid .none (counts.map fun (node, count) => (node, count + 1))
    pure (failures.toCommitResult uuid)

end ChangePass

/-- Carries out a change under a fresh identity. -/
def changePass (sender : Sender) (uuid : Uuid) (nodes : List (Address × LogicalState))
    (change : Change) : Pass (Except Error ChangeOutcome) := do
  let order := passivesFirst nodes
  if order.isEmpty then pure (.error (.invalidConfig "no node to change"))
  else
    let report ← Pass.check order
    match (do pure (← report.readyVersion, ← report.counts order) :
        Except Error (Nat × List (Address × Nat))) with
    | .error e => pure (.error e)
    | .ok (version, counts) => do
      let result ← ChangePass.carryOut sender uuid version change counts
      pure (result.map fun () => ⟨uuid, version, order⟩)

end Reconfig
