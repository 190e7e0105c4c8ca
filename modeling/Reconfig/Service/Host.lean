/-
A node as a process: its disk, and what answers at its address.
-/
import Reconfig.Service.Node
import Reconfig.Service.Startup

namespace Reconfig

/-- What answers at the address of a node. -/
inductive Stage where
  | stopped
  | starting
  | running (service : Service)

structure Host where
  options : StartupOptions
  /-- The state that the node reports when it runs. -/
  state : LogicalState
  disk : Disk
  stage : Stage

namespace Host

/-- What the node writes is on its disk. -/
def running (h : Host) (s : Service) : Host :=
  { h with disk := { h.disk with repository := s.node.store.file? }, stage := .running s }

def node? (h : Host) : Option Participant :=
  match h.stage with
  | .running s => some s.node
  | _ => none

def stop (h : Host) : Host := { h with stage := .stopped }

/-- Starts the node. One that cannot start does not run. -/
def start (h : Host) (strategies : List StartupStrategy) (now : Timestamp) :
    Host × Except Error (StartupStrategy × Participant) :=
  let (disk, outcome) := startNode strategies h.options h.disk now
  let h := { h.stop with disk }
  match outcome with
  | .error e => (h, .error e)
  | .ok (s, p) => (h.running (.new p h.state), .ok (s, p))

/-- The response of the node, unless nothing answers. -/
def respond (h : Host) (r : Request) (now : Timestamp) : Option (Host × Response) :=
  match h.stage with
  | .stopped => none
  | .starting => some (h, startingResponse h.options.name r)
  | .running s =>
    let (s, response) := s.respond r now
    some (h.running s, response)

/-- Withdraws an offer of the running node. -/
def withdraw? (h : Host) (index : Nat) : Option (Host × List String) :=
  match h.stage with
  | .running s => (s.withdraw? index).map fun (s, names) => (h.running s, names)
  | _ => none

/-- Puts other bytes into the change log, whether the node runs or not. -/
def withLog (h : Host) (file : List UInt8) : Host :=
  match h.stage with
  | .running s => h.running { s with node := { s.node with store := s.node.store.withFile file } }
  | _ => { h with disk := { h.disk with repository := some file } }

end Host
end Reconfig
