/-
What the snapshots of several nodes say about the cluster as a whole.

While a change is prepared somewhere, the states that the nodes record of that
change decide. Otherwise the committed histories are compared with that of a
node at the newest version.
-/
import Reconfig.Protocol.Failure

namespace Reconfig

/-- The snapshots of the nodes that answered. -/
abbrev Snapshots := List (Address × Snapshot)

/-- Why no repair can bring the nodes together. -/
inductive Divergence where
  | severalPrepared (count : Nat)
  | splitResolution (uuid : Uuid)
  | differentHistories (uuid : Uuid)
  | divergentHistory (node : Address) (version : Nat)
deriving DecidableEq

def Divergence.text : Divergence → String
  | .severalPrepared count => s!"{count} different changes are prepared"
  | .splitResolution uuid =>
    s!"change {uuid} is committed on some nodes and rolled back on others"
  | .differentHistories uuid => s!"change {uuid} was prepared over different histories"
  | .divergentHistory node version =>
    s!"{node} committed history diverges from the newest node (version {version})"

inductive ClusterState where
  /-- All nodes are at one version with one newest change. -/
  | consistent (version : Nat) (uuid : Option Uuid)
  | partiallyCommitted (uuid : Uuid)
  | partiallyPrepared (uuid : Uuid)
  | partiallyRolledBack (uuid : Uuid)
  /-- The history of some nodes ends earlier. -/
  | lagging (behind : List Address)
  | unrecoverable (why : Divergence)
  /-- No node answered. -/
  | undetermined
deriving DecidableEq

def joined (texts : List String) : String := ", ".intercalate texts

namespace ClusterState

def text : ClusterState → String
  | .consistent version (some uuid) => s!"CONSISTENT (version {version}, change {uuid})"
  | .consistent version none => s!"CONSISTENT (version {version}, no change)"
  | .partiallyCommitted uuid => s!"PARTIALLY_COMMITTED ({uuid})"
  | .partiallyPrepared uuid => s!"PARTIALLY_PREPARED ({uuid})"
  | .partiallyRolledBack uuid => s!"PARTIALLY_ROLLED_BACK ({uuid})"
  | .lagging behind => s!"LAGGING ({joined (behind.map Address.text)})"
  | .unrecoverable why => s!"UNRECOVERABLE ({why.text})"
  | .undetermined => "UNDETERMINED"

instance : ToString ClusterState := ⟨text⟩

def isConsistent : ClusterState → Bool
  | .consistent .. => true
  | _ => false

/-- A change that some node has committed has to be committed on the others. -/
def suggestedRepair : ClusterState → Option ChangeState
  | .partiallyCommitted _ => some .committed
  | .partiallyPrepared _ => some .rolledBack
  | .partiallyRolledBack _ => some .rolledBack
  | _ => none

def changeUnderRepair : ClusterState → Option Uuid
  | .partiallyCommitted uuid => some uuid
  | .partiallyPrepared uuid => some uuid
  | .partiallyRolledBack uuid => some uuid
  | _ => none

end ClusterState

namespace Analysis

/-- Each prepared change once. -/
def preparedChanges (snapshots : Snapshots) : List Uuid :=
  ((snapshots.filter (·.2.mode == .prepared)).filterMap (·.2.latestUuid)).eraseDups

def recordedAs (snapshots : Snapshots) (uuid : Uuid) (state : ChangeState) : Bool :=
  snapshots.any (·.2.stateOf? uuid == some state)

/-- The newest committed changes of the nodes, each once. -/
def heads (snapshots : Snapshots) : List (Option Uuid) :=
  (snapshots.map (·.2.committedHead)).eraseDups

def inFlight (snapshots : Snapshots) (uuid : Uuid) : ClusterState :=
  match recordedAs snapshots uuid .committed, recordedAs snapshots uuid .rolledBack with
  | true, true => .unrecoverable (.splitResolution uuid)
  | true, false => .partiallyCommitted uuid
  | false, true => .partiallyRolledBack uuid
  | false, false =>
    if 1 < (heads snapshots).length then .unrecoverable (.differentHistories uuid)
    else .partiallyPrepared uuid

/-- Of the snapshots with the greatest version the last one. -/
def newest? (snapshots : Snapshots) : Option Snapshot :=
  snapshots.foldl (fun best entry =>
    match best with
    | none => some entry.2
    | some s => if s.currentVersion ≤ entry.2.currentVersion then some entry.2 else some s) none

/-- How a node stands to a node at the newest version. -/
inductive Standing where
  | level
  | behind
  | divergent
deriving DecidableEq

def standing (newest s : Snapshot) : Standing :=
  if s.committedHead = newest.committedHead ∧ s.currentVersion = newest.currentVersion then .level
  else if s.committedHead.all (newest.hasCommitted ·) ∧ s.currentVersion < newest.currentVersion
  then .behind
  else .divergent

def idle (snapshots : Snapshots) : ClusterState :=
  match newest? snapshots with
  | none => .undetermined
  | some newest =>
    match snapshots.find? fun entry => standing newest entry.2 == .divergent with
    | some (node, _) => .unrecoverable (.divergentHistory node newest.currentVersion)
    | none =>
      match snapshots.filter fun entry => standing newest entry.2 == .behind with
      | [] => .consistent newest.currentVersion newest.committedHead
      | behind => .lagging (behind.map (·.1))

end Analysis

def analyze (snapshots : Snapshots) : ClusterState :=
  if snapshots.isEmpty then .undetermined
  else
    match Analysis.preparedChanges snapshots with
    | [] => Analysis.idle snapshots
    | [uuid] => Analysis.inFlight snapshots uuid
    | several => .unrecoverable (.severalPrepared several.length)

structure Report where
  responses : Snapshots
  unreachable : List (Address × CallError)

namespace Report

def ofAnswers (answers : List (Address × Except CallError Snapshot)) : Report where
  responses := answers.filterMap fun answer => answer.2.toOption.map (answer.1, ·)
  unreachable := answers.filterMap fun answer =>
    match answer.2 with
    | .ok _ => none
    | .error e => some (answer.1, e)

def state (r : Report) : ClusterState := analyze r.responses

def isConsistent (r : Report) : Bool := r.state.isConsistent

def allReachable (r : Report) : Bool := r.unreachable.isEmpty

def response? (r : Report) (node : Address) : Option Snapshot := r.responses.lookup node

end Report
end Reconfig
