/-
Waiting until nodes have come back.

The nodes that are still missing are asked again and again, and once more when
the time is up.
-/
import Reconfig.Coordination.Operator

namespace Reconfig

/-- The state of each node at each tick of a clock. -/
abbrev Probe := Nat → Address → LogicalState

/-- The nodes that were asked at one time. -/
structure Round where
  time : Nat
  asked : List Address
deriving DecidableEq

structure WaitEnd where
  /-- The nodes that showed no target state, in order. -/
  missing : List Address
  /-- How often the nodes were asked, the last time first. -/
  rounds : List Round
deriving DecidableEq

namespace WaitEnd

def elapsed (w : WaitEnd) : Nat := (w.rounds.headD ⟨0, []⟩).time

/-- The nodes that show no target state at the time. -/
def absent (probe : Probe) (targets : List LogicalState) (time : Nat) (nodes : List Address) :
    List Address :=
  nodes.filter fun node => !targets.contains (probe time node)

/-- Asks at the given time and, as long as nodes are missing and time is left,
again after the interval or at the end. An interval of no length would not let
time pass, and ends the wait. -/
def poll (probe : Probe) (targets : List LogicalState) (interval limit : Nat)
    (missing : List Address) (earlier : List Round) (time : Nat) : WaitEnd :=
  let rounds := ⟨time, missing⟩ :: earlier
  let missing := absent probe targets time missing
  if missing.isEmpty || limit ≤ time then ⟨missing, rounds⟩
  else
    let step := min interval (limit - time)
    if 0 < step then poll probe targets interval limit missing rounds (time + step)
    else ⟨missing, rounds⟩
termination_by limit - time

end WaitEnd

/-- The nodes in order, each once. -/
def distinctNodes (nodes : List Address) : List Address :=
  (Dict.ofList (nodes.map fun node => (node.text, ()))).keys.map Address.mk

/-- The wait by a clock whose ticks may have any length, and that can show no
time after the given number of them. If the wait would end later, the program
stops before it has asked a node. -/
def waitTicks (probe : Probe) (interval : Nat) (nodes : List Address)
    (targets : List LogicalState) (clockEnd limit : Nat) : Option WaitEnd :=
  if clockEnd < limit then none
  else some (WaitEnd.poll probe targets interval limit (distinctNodes nodes) [] 0)

/-- The last time of a clock that counts seconds in sixty-three bits. -/
def Span.clockEnd : Span := ⟨2 ^ 63 * 1000 - 1⟩

/-- The wait by a clock of milliseconds that has just been set to zero. -/
def waitFor (probe : Probe) (interval : Span) (nodes : List Address)
    (targets : List LogicalState) (limit : Span) : Option WaitEnd :=
  waitTicks probe interval.millis nodes targets Span.clockEnd.millis limit.millis

def WaitEnd.toResult (w : WaitEnd) (targets : List LogicalState) (limit : Span) :
    Except Error Unit :=
  if w.missing.isEmpty then .ok ()
  else
    .error (.restartTimeout ("|".intercalate (targets.map LogicalState.text)) limit.seconds
      (w.missing.map Address.text))

/-- The states of a node that is back. -/
def backStates : List LogicalState := [.active, .passive]

structure Scheduled where
  after : Span
  node : Address
  state : LogicalState

/-- The fleet at the given millisecond. Of two changes of a node the later one
stays. -/
def Fleet.scheduledBy (f : Fleet) (schedule : List Scheduled) (time : Nat) : Fleet :=
  let due := schedule.filter fun c => decide (c.after.millis ≤ time)
  (due.mergeSort fun a b => decide (a.after.millis ≤ b.after.millis)).foldl
    (fun f c => f.setState c.node c.state) f

end Reconfig
