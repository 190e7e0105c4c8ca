/-
What an operator asks of a cluster.
-/
import Reconfig.Coordination.Fleet
import Reconfig.Coordination.RecoveryPass

namespace Reconfig

structure Operator where
  sender : Sender
  patience : Patience
  restartWait : Span
  restartPoll : Span
deriving DecidableEq

/-- The nodes that can take part in a change. -/
def filterOnline (nodes : List (Address × LogicalState)) : List (Address × LogicalState) :=
  nodes.filter (·.2.isOnline)

def onlineChangePass (sender : Sender) (uuid : Uuid) (nodes : List (Address × LogicalState))
    (change : Change) : Pass (Except Error ChangeOutcome) :=
  changePass sender uuid (filterOnline nodes) change

def onlineRepairPass (sender : Sender) (nodes : List (Address × LogicalState))
    (forced : Option ChangeState) : Pass (Except Error RecoveryOutcome) :=
  repairPass sender ((filterOnline nodes).map (·.1)) forced

def CallError.toError (e : CallError) (node : Address) : Error :=
  .connectionFailed s!"{node}: {e.text}"

namespace Fleet

def view (f : Fleet) (node : Address) : Except Error TopologyView :=
  (f.topology node).mapError (·.toError node)

def runtimeCluster (f : Fleet) (node : Address) : Except Error Cluster := do
  match (← f.view node).runtime with
  | some c => pure c
  | none => .error (.notFound s!"{node} is not activated")

def upcomingCluster (f : Fleet) (node : Address) : Except Error Cluster := do
  match (← f.view node).upcoming with
  | some c => pure c
  | none => .error (.notFound s!"{node} has no configuration")

def isActivated (f : Fleet) (node : Address) : Except Error Bool := do
  pure (← f.view node).isActivated

/-- Whether all nodes are activated, where they agree on that. -/
def allActivated (f : Fleet) (nodes : List Address) : Except Error Bool := do
  let answers ← nodes.mapM fun node => do pure (node, ← f.isActivated node)
  let activated := (answers.filter (·.2)).map (·.1)
  let others := (answers.filter (!·.2)).map (·.1)
  if activated ≠ [] ∧ others ≠ [] then
    .error (.inconsistent (s!"activated: {joined (activated.map Address.text)}; " ++
      s!"not activated: {joined (others.map Address.text)}"))
  else pure others.isEmpty

/-- Whether a change is in flight on the node. The operator waits for the answer
however long it takes. -/
def hasIncompleteChange (f : Fleet) (node : Address) : Fleet × Except Error Bool :=
  let (f, answer) := f.discover node none
  (f, (answer.map Snapshot.hasIncompleteChange).mapError (·.toError node))

def runtimePeers (f : Fleet) (node : Address) : Except Error (List Address) := do
  pure ((← f.runtimeCluster node).addresses.map Address.mk)

def runtimePeersStatus (f : Fleet) (node : Address) :
    Except Error (List (Address × LogicalState)) := do
  pure (f.logicalStates (← f.runtimePeers node))

def onlineRuntimePeers (f : Fleet) (node : Address) :
    Except Error (List (Address × LogicalState)) := do
  pure (filterOnline (← f.runtimePeersStatus node))

end Fleet
end Reconfig
