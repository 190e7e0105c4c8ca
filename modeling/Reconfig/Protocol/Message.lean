/-
What coordinators and nodes say to each other.

A mutating message carries the number of mutating messages that its sender
believes the node has accepted. A node that has accepted another number refuses
the message, so no sender acts on a state it has not seen.
-/
import Reconfig.Time.Timestamp
import Reconfig.Topology.Validation
import Reconfig.Uuid

namespace Reconfig

inductive Mode where
  | accepting
  | prepared
deriving DecidableEq

namespace Mode

def text : Mode → String
  | .accepting => "ACCEPTING"
  | .prepared => "PREPARED"

instance : ToString Mode := ⟨text⟩

def ofText? : String → Option Mode
  | "ACCEPTING" => some .accepting
  | "PREPARED" => some .prepared
  | _ => none

@[simp] theorem ofText?_text (mode : Mode) : ofText? mode.text = some mode := by
  cases mode <;> rfl

end Mode

inductive ChangeState where
  | prepared
  | committed
  | rolledBack
deriving DecidableEq

namespace ChangeState

def text : ChangeState → String
  | .prepared => "PREPARED"
  | .committed => "COMMITTED"
  | .rolledBack => "ROLLED_BACK"

instance : ToString ChangeState := ⟨text⟩

def ofText? : String → Option ChangeState
  | "PREPARED" => some .prepared
  | "COMMITTED" => some .committed
  | "ROLLED_BACK" => some .rolledBack
  | _ => none

/-- Letters are read in either case, and a closed state may be named by the verb.
A text that names no state is given back in capitals. -/
def parse (text : String) : Except String ChangeState :=
  match text.map Char.toUpper with
  | "COMMIT" => .ok .committed
  | "ROLLBACK" => .ok .rolledBack
  | capitals =>
    match ofText? capitals with
    | some state => .ok state
    | none => .error s!"unknown change state {capitals}"

/-- A closed change never changes its state again. -/
def isTerminal (state : ChangeState) : Bool := state != .prepared

@[simp] theorem ofText?_text (state : ChangeState) : ofText? state.text = some state := by
  cases state <;> rfl

theorem capitals_text (state : ChangeState) : state.text.map Char.toUpper = state.text := by
  apply String.toList_inj.1
  rw [String.toList_map]
  cases state <;> decide

@[simp] theorem parse_text (state : ChangeState) : parse state.text = .ok state := by
  rw [parse, capitals_text]
  cases state <;> rfl

end ChangeState

/-- The fence of a mutating message, and who sends it. -/
structure Context where
  expected : Nat
  host : String
  user : String
deriving DecidableEq

structure Prepare where
  context : Context
  uuid : Uuid
  version : Nat
  change : Change

/-- Closes the change that is in flight, as committed or as rolled back. -/
structure Close where
  context : Context
  uuid : Uuid
deriving DecidableEq

/-- Closes a change as the target says. -/
structure Force where
  context : Context
  uuid : Uuid
  target : ChangeState
deriving DecidableEq

inductive Message where
  | prepare (message : Prepare)
  | commit (message : Close)
  | rollback (message : Close)
  | force (message : Force)

/-- A change request in the history of a node. -/
structure LineageEntry where
  uuid : Uuid
  version : Nat
  state : ChangeState
  previous : Option Uuid
deriving DecidableEq

/-- All that a node keeps of a change request. -/
structure ChangeDetails where
  uuid : Uuid
  state : ChangeState
  version : Nat
  previous : Option Uuid
  change : Change
  /-- The topology that the change produced when it was prepared. -/
  result : Cluster
  resultHash : String
  host : String
  user : String
  created : Timestamp

/-- What a node tells about its protocol state. -/
structure Snapshot where
  mode : Mode
  count : Nat
  lastHost : Option String
  lastUser : Option String
  lastTimestamp : Option Timestamp
  currentVersion : Nat
  highestVersion : Nat
  latest : Option ChangeDetails
  /-- The history of the node, the newest request first. -/
  lineage : List LineageEntry

namespace Snapshot

def latestUuid (s : Snapshot) : Option Uuid := s.latest.map (·.uuid)

def latestState (s : Snapshot) : Option ChangeState := s.latest.map (·.state)

/-- The committed changes, the newest first. -/
def committedChain (s : Snapshot) : List Uuid :=
  (s.lineage.filter (·.state == .committed)).map (·.uuid)

/-- The newest committed change. -/
def committedHead (s : Snapshot) : Option Uuid := s.committedChain.head?

def hasCommitted (s : Snapshot) (uuid : Uuid) : Bool := s.committedChain.contains uuid

def hasIncompleteChange (s : Snapshot) : Bool := s.mode == .prepared

def stateOf? (s : Snapshot) (uuid : Uuid) : Option ChangeState :=
  (s.lineage.find? (·.uuid == uuid)).map (·.state)

end Snapshot

structure TopologyView where
  /-- The result of the latest change that was not rolled back. -/
  upcoming : Option Cluster
  runtime : Option Cluster
deriving DecidableEq

def TopologyView.isActivated (v : TopologyView) : Bool := v.runtime.isSome

inductive Reason where
  | concurrentChange (inFlight : Option Uuid)
  | staleVersion (expected received : Nat)
  | validationFailed
  | dead (expected actual : Nat)
  | notPrepared
  | uuidMismatch (prepared : Option Uuid)
  | unknownChange
  | applyFailed
  | invalidTarget
  | storage
deriving DecidableEq

namespace Reason

def text : Reason → String
  | .concurrentChange _ => "concurrent change"
  | .staleVersion expected received => s!"stale version (expected {expected}, received {received})"
  | .validationFailed => "validation failed"
  | .dead expected actual => s!"mutative message count is {actual} not {expected}"
  | .notPrepared => "no prepared change"
  | .uuidMismatch _ => "change uuid mismatch"
  | .unknownChange => "unknown change"
  | .applyFailed => "apply failed"
  | .invalidTarget => "invalid target state"
  | .storage => "storage failure"

/-- Whether the sender may try again after it has looked at the node. -/
def isRetryable : Reason → Bool
  | .staleVersion .. => true
  | .dead .. => true
  | .concurrentChange _ => true
  | _ => false

end Reason

/-- A refusal, with the sender of the last accepted message where it is known. -/
structure Rejection where
  reason : Reason
  message : String
  lastHost : Option String
  lastUser : Option String
deriving DecidableEq

namespace Rejection

def plain (reason : Reason) (message : String) : Rejection := ⟨reason, message, none, none⟩

def text (r : Rejection) : String :=
  let base := s!"{r.reason.text}: {r.message}"
  let user := r.lastUser.getD "?"
  match r.lastHost with
  | some host => base ++ s!" (last mutation by {user}@{host})"
  | none => base

def isRetryable (r : Rejection) : Bool := r.reason.isRetryable

end Rejection

abbrev Answer := Except Rejection Unit

end Reconfig
