/-
Starting a node.

A node that was started before goes on from its change log. A new one may take
its topology from a file and activate itself.
-/
import Reconfig.Coordination.ChangePass
import Reconfig.Participant.Basic
import Reconfig.Settings.Basic

namespace Reconfig

inductive StartupStrategy where
  | existingRepository
  | configFile
  | unconfigured
deriving DecidableEq

namespace StartupStrategy

def name : StartupStrategy → String
  | .existingRepository => "ExistingRepository"
  | .configFile => "ConfigFile"
  | .unconfigured => "Unconfigured"

/-- The strategies in the order in which they are tried. -/
def all : List StartupStrategy := [.existingRepository, .configFile, .unconfigured]

def ofName? (name : String) : Option StartupStrategy := all.find? (·.name == name)

end StartupStrategy

structure StartupOptions where
  name : String
  limits : Limits
  topologyFile : Option String
  /-- Whether a node activates itself with the topology of the file. -/
  autoActivate : Bool
  sender : Sender
  uuid : Uuid

structure Disk where
  files : Settings.Files
  repository : Option (List UInt8)

namespace Participant

/-- Activates a node that no change has reached, by a message to prepare and
one to commit. -/
def activate (p : Participant) (o : StartupOptions) (c : Cluster) (now : Timestamp) :
    Participant × Except Error Unit :=
  match p.discover with
  | .error e => (p, .error e)
  | .ok s =>
    if s.latest.isSome then (p, .ok ())
    else
      let context (count : Nat) : Context := ⟨count, o.sender.host, o.sender.user⟩
      let prepare : Prepare := ⟨context s.count, o.uuid, s.currentVersion + 1, .activation c⟩
      match p.handle (.prepare prepare) now with
      | (p, .error r) => (p, .error (.invalidChange r.text))
      | (p, .ok ()) =>
        match p.handle (.commit ⟨context (s.count + 1), o.uuid⟩) now with
        | (p, .error r) => (p, .error (.invalidChange r.text))
        | (p, .ok ()) => (p, .ok ())

end Participant

namespace StartupStrategy

def applies (s : StartupStrategy) (o : StartupOptions) (d : Disk) : Bool :=
  match s with
  | .existingRepository => d.repository.isSome
  | .configFile => o.topologyFile.isSome
  | .unconfigured => true

/-- Opens the change log, which is made if there is none, and starts a node
over it. -/
def openNode (o : StartupOptions) (d : Disk) : Disk × Except Error Participant :=
  let file := d.repository.getD []
  let d := { d with repository := some file }
  match ChangeLog.openFile file with
  | .error fault => (d, .error fault.toError)
  | .ok frames =>
    let (p, outcome) := Participant.boot ⟨o.name, .log frames, .new o.limits []⟩
    ({ d with repository := p.store.file? }, outcome.map fun _ => p)

/-- The topology of the file, which the node has to be a part of. -/
def topology (o : StartupOptions) (d : Disk) : Except Error Cluster :=
  match o.topologyFile with
  | none => .error (.invalidConfig "no topology file")
  | some file =>
    match Cluster.ofFile? d.files file with
    | none => .error Settings.Fault.unreadable.toError
    | some c =>
      if c.nodes.any (·.name == o.name) then .ok c
      else .error (.invalidConfig s!"node {o.name} is not part of cluster {c.name} in {file}")

def start (s : StartupStrategy) (o : StartupOptions) (d : Disk) (now : Timestamp) :
    Disk × Except Error Participant :=
  if s = .configFile then
    match topology o d with
    | .error e => (d, .error e)
    | .ok c =>
      match openNode o d with
      | (d, .error e) => (d, .error e)
      | (d, .ok p) =>
        if o.autoActivate then
          let (p, outcome) := p.activate o c now
          ({ d with repository := p.store.file? }, outcome.map fun _ => p)
        else (d, .ok p)
  else openNode o d

end StartupStrategy

/-- Starts a node by the first of the strategies that applies. -/
def startNode (strategies : List StartupStrategy) (o : StartupOptions) (d : Disk)
    (now : Timestamp) : Disk × Except Error (StartupStrategy × Participant) :=
  match strategies.find? (·.applies o d) with
  | none => (d, .error (.invalidConfig "no startup strategy applies"))
  | some s =>
    let (d, outcome) := s.start o d now
    (d, outcome.map (s, ·))

end Reconfig
