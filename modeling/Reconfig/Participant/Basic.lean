/-
A node that takes part in changes.

A node accepts one change at a time. A prepare message takes it from accepting
to prepared, and a commit, rollback or force message takes it back. Every
message that is accepted raises the count of mutating messages by one and is
kept as one change-set.
-/
import Reconfig.Participant.ChangeRequest
import Reconfig.Participant.Processor
import Reconfig.Protocol.Failure
import Reconfig.Store.Backend

namespace Reconfig

structure Participant where
  name : String
  store : Store
  processor : Processor

/-- Why a message is not carried out: the protocol forbids it, or the node fails. -/
inductive Refusal where
  | reason (reason : Reason)
  | error (error : Error)

namespace Store

/-- A store without protocol state gets that of a new node. -/
def initialized (s : Store) : Except Error Store :=
  if s.space.isInitialized then .ok s else s.commit NodeState.initialWrites

end Store

namespace Participant

def space (p : Participant) : KeySpace := p.store.space

def resume (name : String) (store : Store) (processor : Processor) :
    Except Error Participant := do
  let state ← store.space.nodeState.mapError StateFault.toError
  let committed ← (store.space.committedTopology state.latest).mapError StateFault.toError
  pure ⟨name, store, processor.load committed⟩

def start (name : String) (store : Store) (processor : Processor) : Except Error Participant := do
  resume name (← store.initialized) processor

/-- Starts the node over its store, with the listeners that it has. A node that
cannot start keeps its store. -/
def boot (p : Participant) : Participant × Except Error Unit :=
  match p.store.initialized with
  | .error e => (p, .error e)
  | .ok store =>
    match resume p.name store (.new p.processor.limits p.processor.listeners) with
    | .error e => ({ p with store }, .error e)
    | .ok next => (next, .ok ())

/-- Starts the node again over its store, which is opened again. -/
def restart (p : Participant) : Participant × Except Error Unit :=
  match p.store.reopened with
  | .error e => (p, .error e)
  | .ok store => boot { p with store }

/-! ## Queries -/

def state (p : Participant) : Except Error NodeState :=
  p.space.nodeState.mapError StateFault.toError

def discover (p : Participant) : Except Error Snapshot := do
  let state ← p.state
  let latest ← match state.latest with
    | none => pure none
    | some uuid => (p.space.request? uuid).mapError StateFault.toError
  let lineage ← (p.space.lineage state.latest).mapError StateFault.toError
  pure {
    mode := state.mode
    count := state.count
    lastHost := state.lastHost
    lastUser := state.lastUser
    lastTimestamp := state.lastTimestamp
    currentVersion := state.currentVersion
    highestVersion := state.highestVersion
    latest
    lineage }

def committedTopology (p : Participant) : Except Error (Option Cluster) := do
  let state ← p.state
  (p.space.committedTopology state.latest).mapError StateFault.toError

def upcomingTopology (p : Participant) : Except Error (Option Cluster) := do
  let state ← p.state
  (p.space.upcomingTopology state.latest).mapError StateFault.toError

def runtimeTopology (p : Participant) : Option Cluster := p.processor.runtime

def topologyView (p : Participant) : Except Error TopologyView := do
  pure ⟨← p.upcomingTopology, p.runtimeTopology⟩

/-! ## Messages -/

def checkFence (state : NodeState) (context : Context) : Except Reason Unit :=
  if state.count = context.expected then .ok () else .error (.dead context.expected state.count)

def checkPrepared (state : NodeState) (uuid : Uuid) : Except Reason Unit :=
  if state.mode ≠ .prepared then .error .notPrepared
  else if state.latest ≠ some uuid then .error (.uuidMismatch state.latest)
  else .ok ()

/-- The writes that every accepted message ends with. -/
def provenance (c : ChangeSet) (context : Context) (now : Timestamp) : ChangeSet :=
  c.put Key.lastHost (.text context.host)
    |>.put Key.lastUser (.text context.user)
    |>.put Key.lastTimestamp (.text now.storedText)

def newRequest (state : NodeState) (m : Prepare) (result : Cluster) (now : Timestamp) :
    ChangeDetails where
  uuid := m.uuid
  state := .prepared
  version := m.version
  previous := state.latest
  change := m.change
  result := result
  resultHash := result.hash
  host := m.context.host
  user := m.context.user
  created := now

def prepareWrites (state : NodeState) (m : Prepare) (result : Cluster) (now : Timestamp) :
    ChangeSet :=
  let writes := ChangeSet.empty
    |>.put m.uuid.text (.ofRecord (newRequest state m result now).toRecord)
    |>.put Key.mode (.text Mode.prepared.text)
    |>.put Key.lastRequest (.text "PREPARE")
    |>.put Key.latest (.text m.uuid.text)
    |>.put Key.highestVersion (.long m.version)
    |>.put Key.count (.long (state.count + 1))
  provenance writes m.context now

def checkPrepare (p : Participant) (state : NodeState) (m : Prepare) :
    Except Refusal Cluster := do
  (checkFence state m.context).mapError .reason
  if state.mode ≠ .accepting then .error (.reason (.concurrentChange state.latest))
  else if m.version ≠ state.currentVersion + 1 then
    .error (.reason (.staleVersion (state.currentVersion + 1) m.version))
  else
    match ← (p.space.request? m.uuid).mapError fun fault => .error fault.toError with
    | some _ => .error (.reason .validationFailed)
    | none =>
      let current ←
        (p.space.committedTopology state.latest).mapError fun fault => .error fault.toError
      match p.processor.validate current m.change with
      | .ok result => pure result
      | .error _ => .error (.reason .validationFailed)

def prepare (p : Participant) (state : NodeState) (m : Prepare) (now : Timestamp) :
    Participant × Except Refusal Unit :=
  match p.checkPrepare state m with
  | .error refusal => (p, .error refusal)
  | .ok result =>
    match p.store.commit (prepareWrites state m result now) with
    | .ok store => ({ p with store }, .ok ())
    | .error e => (p, .error (.error e))

/-- How a change request is closed. -/
inductive Closing where
  | commit
  | rollback
  | force (target : ChangeState)

namespace Closing

def target : Closing → ChangeState
  | .commit => .committed
  | .rollback => .rolledBack
  | .force target => target

def request : Closing → String
  | .commit => "COMMIT"
  | .rollback => "ROLLBACK"
  | .force _ => "FORCE"

end Closing

def closeWrites (state : NodeState) (context : Context) (uuid : Uuid) (record : Record)
    (version : Nat) (closing : Closing) (now : Timestamp) : ChangeSet :=
  let writes := if closing.target = .committed
    then ChangeSet.empty.put Key.currentVersion (.long version) else ChangeSet.empty
  let writes := writes
    |>.put uuid.text
      (.ofRecord (record.insert RequestKey.state (.text closing.target.text)))
    |>.put Key.mode (.text Mode.accepting.text)
    |>.put Key.lastRequest (.text closing.request)
    |>.put Key.count (.long (state.count + 1))
  provenance writes context now

/-- Makes the result of a request effective where the request is committed. -/
def takeEffect (p : Participant) (details : ChangeDetails) (closing : Closing) :
    Participant × Except Error Unit :=
  if closing.target = .committed then
    let (processor, outcome) := p.processor.apply details.change details.result
    ({ p with processor }, outcome)
  else (p, .ok ())

/-- Closes a request. The result of a committed request takes effect before the
store is written, and stays in effect where the store refuses the writes. -/
def close (p : Participant) (state : NodeState) (context : Context) (uuid : Uuid)
    (closing : Closing) (now : Timestamp) : Participant × Except Refusal Unit :=
  match p.space.requestRecord? uuid with
  | none => (p, .error (.error (.notFound uuid.owner)))
  | some record =>
    match ChangeDetails.ofRecord uuid record with
    | .error fault => (p, .error (.error fault.toError))
    | .ok details =>
      match p.takeEffect details closing with
      | (p, .error _) => (p, .error (.reason .applyFailed))
      | (p, .ok ()) =>
        match p.store.commit
            (closeWrites state context uuid record details.version closing now) with
        | .ok store => ({ p with store }, .ok ())
        | .error e => (p, .error (.error e))

def closePrepared (p : Participant) (state : NodeState) (m : Close) (closing : Closing)
    (now : Timestamp) : Participant × Except Refusal Unit :=
  match (do checkFence state m.context; checkPrepared state m.uuid : Except Reason Unit) with
  | .error reason => (p, .error (.reason reason))
  | .ok () => p.close state m.context m.uuid closing now

def checkForce (p : Participant) (state : NodeState) (m : Force) : Except Refusal Unit := do
  (checkFence state m.context).mapError .reason
  if m.target = .prepared then .error (.reason .invalidTarget)
  else
    match ← (p.space.request? m.uuid).mapError fun fault => .error fault.toError with
    | none => .error (.reason .unknownChange)
    | some details =>
      if details.state = .prepared then pure () else .error (.reason .notPrepared)

def force (p : Participant) (state : NodeState) (m : Force) (now : Timestamp) :
    Participant × Except Refusal Unit :=
  match p.checkForce state m with
  | .error refusal => (p, .error refusal)
  | .ok () => p.close state m.context m.uuid (.force m.target) now

def attempt (p : Participant) (state : NodeState) (m : Message) (now : Timestamp) :
    Participant × Except Refusal Unit :=
  match m with
  | .prepare m => p.prepare state m now
  | .commit m => p.closePrepared state m .commit now
  | .rollback m => p.closePrepared state m .rollback now
  | .force m => p.force state m now

def rejectionOfError (e : Error) : Rejection :=
  let reason := match e with
    | .invalidChange _ => .validationFailed
    | .invalidTopology _ => .validationFailed
    | .capacityExceeded _ => .validationFailed
    | _ => .storage
  .plain reason e.message

/-- The rejection that a refusal leads to. One that the protocol asks for tells
who sent the last accepted message. -/
def rejection (p : Participant) (state : NodeState) (phase : Phase) : Refusal → Rejection
  | .reason reason => ⟨reason, s!"{phase} rejected by {p.name}", state.lastHost, state.lastUser⟩
  | .error e => rejectionOfError e

/-- The node after a mutating message, and its answer. -/
def handle (p : Participant) (m : Message) (now : Timestamp) : Participant × Answer :=
  match p.state with
  | .error e => (p, .error (rejectionOfError e))
  | .ok state =>
    let (next, outcome) := p.attempt state m now
    (next, outcome.mapError (p.rejection state m.phase))

end Participant
end Reconfig
