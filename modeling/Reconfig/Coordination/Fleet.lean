/-
A set of nodes that a coordinator calls, with faults on the way to them.

A call that takes longer than its caller waits never reaches the node. A call
is remembered whether or not it reaches the node.
-/
import Reconfig.Coordination.Pass
import Reconfig.Participant.Basic
import Reconfig.Time.Span

namespace Reconfig

/-- What happens to the calls of one phase to one node. -/
inductive NetworkFault where
  | unreachable
  | delay (span : Span)
deriving DecidableEq

structure Fleet where
  members : Dict Participant
  states : Dict LogicalState
  faults : List ((Address × Phase) × NetworkFault)
  /-- Every call that was made, the oldest first. -/
  calls : List (Address × Phase)

/-- How long a coordinator waits for an answer. -/
structure Patience where
  call : Span
  discovery : Span
deriving DecidableEq

namespace Fleet

def empty : Fleet := ⟨∅, ∅, [], []⟩

def addNode (f : Fleet) (node : Address) (p : Participant) (state : LogicalState) : Fleet :=
  { f with members := f.members.insert node.text p, states := f.states.insert node.text state }

def addresses (f : Fleet) : List Address := f.members.keys.map Address.mk

def member? (f : Fleet) (node : Address) : Option Participant := f.members.get? node.text

def setState (f : Fleet) (node : Address) (state : LogicalState) : Fleet :=
  { f with states := f.states.insert node.text state }

/-- A node of which nothing is known has an unknown state. -/
def logicalState (f : Fleet) (node : Address) : LogicalState :=
  (f.states.get? node.text).getD .unknown

def logicalStates (f : Fleet) (nodes : List Address) : List (Address × LogicalState) :=
  nodes.map fun node => (node, f.logicalState node)

/-- A fault replaces an earlier one of the same phase and node. -/
def inject (f : Fleet) (node : Address) (phase : Phase) (fault : NetworkFault) : Fleet :=
  { f with faults := ((node, phase), fault) :: f.faults }

def clearFaults (f : Fleet) : Fleet := { f with faults := [] }

def callsOf (f : Fleet) (phase : Phase) : List Address :=
  (f.calls.filter (·.2 == phase)).map (·.1)

def record (f : Fleet) (node : Address) (phase : Phase) : Fleet :=
  { f with calls := f.calls ++ [(node, phase)] }

/-- The node behind the address, if a call that is waited for as long as the
limit says gets there. -/
def reach (f : Fleet) (node : Address) (phase : Phase) (limit : Option Span) :
    Except CallError Participant :=
  let arrival : Except CallError Participant :=
    match f.member? node with
    | some p => .ok p
    | none => .error (.unreachable s!"unknown node {node}")
  match f.faults.lookup (node, phase) with
  | none => arrival
  | some .unreachable => .error (.unreachable s!"{node} is down")
  | some (.delay span) =>
    if limit.any fun limit => decide (limit.millis < span.millis) then .error .timeout
    else arrival

def discover (f : Fleet) (node : Address) (limit : Option Span) :
    Fleet × Except CallError Snapshot :=
  let answer := match f.reach node .discover limit with
    | .error e => .error e
    | .ok p => p.discover.mapError fun e => .unreachable e.message
  (f.record node .discover, answer)

def discoverAll (f : Fleet) (limit : Option Span) :
    List Address → Fleet × List (Address × Except CallError Snapshot)
  | [] => (f, [])
  | node :: rest =>
    let (f, answer) := f.discover node limit
    let (f, answers) := discoverAll f limit rest
    (f, (node, answer) :: answers)

def deliver (f : Fleet) (node : Address) (p : Participant) (m : Message) (now : Timestamp) :
    Fleet × Answer :=
  let (p, answer) := p.handle m now
  ({ f with members := f.members.insert node.text p }, answer)

def send (f : Fleet) (node : Address) (m : Message) (limit : Option Span) (now : Timestamp) :
    Fleet × Except CallError Unit :=
  let called := f.record node m.phase
  match f.reach node m.phase limit with
  | .error e => (called, .error e)
  | .ok p =>
    let (next, answer) := called.deliver node p m now
    (next, answer.mapError .rejected)

/-- The topologies of one node, over calls that have no faults. -/
def topology (f : Fleet) (node : Address) : Except CallError TopologyView :=
  match f.member? node with
  | none => .error (.unreachable s!"unknown node {node}")
  | some p => p.topologyView.mapError fun e => .unreachable e.message

end Fleet

/-- The time of each call, by the number of calls that were made before it. -/
abbrev Clock := Nat → Timestamp

def Pass.run {α : Type} (patience : Patience) (clock : Clock) : Pass α → Fleet → Fleet × α
  | .done result, f => (f, result)
  | .discover nodes next, f =>
    let (f, answers) := f.discoverAll (some patience.discovery) nodes
    (next answers).run patience clock f
  | .send node m next, f =>
    let (f, answer) := f.send node m (some patience.call) (clock f.calls.length)
    (next answer).run patience clock f

end Reconfig
