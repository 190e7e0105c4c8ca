/-
The settings of a node and of a coordinator.

They come from a file, with the environment laid over it. What neither of them
gives has a value of its own.
-/
import Reconfig.Error
import Reconfig.Settings.Coercion
import Reconfig.Settings.Endpoint
import Reconfig.Settings.Environment
import Reconfig.Settings.File
import Reconfig.Text.Blank

namespace Reconfig

inductive NodeRole where
  | active
  | passive
deriving DecidableEq

def NodeRole.text : NodeRole → String
  | .active => "active"
  | .passive => "passive"

def NodeRole.ofText? : String → Option NodeRole
  | "active" => some .active
  | "passive" => some .passive
  | _ => none

/-- The state that a running node of the role reports. -/
def NodeRole.logicalState : NodeRole → LogicalState
  | .active => .active
  | .passive => .passive

/-- When a change log is forced to the disk. -/
inductive SyncPolicy where
  | always
  | never
deriving DecidableEq

def SyncPolicy.text : SyncPolicy → String
  | .always => "always"
  | .never => "never"

def SyncPolicy.ofText? : String → Option SyncPolicy
  | "always" => some .always
  | "never" => some .never
  | _ => none

structure NodeSettings where
  name : String
  endpoint : Endpoint
  repository : String
  role : NodeRole
  limits : Limits
  sync : SyncPolicy

structure CoordinatorSettings where
  host : String
  user : String
  callTimeout : String
  discoveryTimeout : String
  restartWait : String
  restartPoll : String

structure Settings where
  node : NodeSettings
  coordinator : CoordinatorSettings
  logLevel : Option String

open Settings (Environment Files fields? text? choice? layer)

namespace NodeSettings

def default : NodeSettings :=
  ⟨"node-1", .short [0, 0, 0, 0] 9410, "./dynconf-repo", .passive, ⟨none⟩, .always⟩

def ofSettings? (j : Json) : Option NodeSettings := do
  let f ← fields? ["name", "bind_addr", "repository_dir", "role", "limits", "sync_policy"] j
  pure {
    name := ← f.defaulted? "name" text? default.name
    endpoint := ← f.defaulted? "bind_addr" (fun j => (text? j).bind Endpoint.parse?)
      default.endpoint
    repository := ← f.defaulted? "repository_dir" text? default.repository
    role := ← f.defaulted? "role"
      (fun j => (choice? ["active", "passive"] j).bind NodeRole.ofText?) default.role
    limits := ← f.defaulted? "limits" Limits.ofSettings? default.limits
    sync := ← f.defaulted? "sync_policy"
      (fun j => (choice? ["always", "never"] j).bind SyncPolicy.ofText?) default.sync }

def toJson (s : NodeSettings) : Json :=
  .obj [("name", .str s.name), ("bind_addr", .str s.endpoint.text),
    ("repository_dir", .str s.repository), ("role", .str s.role.text),
    ("limits", s.limits.toJson), ("sync_policy", .str s.sync.text)]

end NodeSettings

namespace CoordinatorSettings

/-- A coordinator signs with the names of its host and of its user. -/
def default (e : Environment) : CoordinatorSettings :=
  ⟨(e.first? ["HOSTNAME", "COMPUTERNAME"]).getD "localhost",
    (e.first? ["USER", "USERNAME"]).getD "unknown", "30s", "10s", "2m", "1s"⟩

def ofSettings? (e : Environment) (j : Json) : Option CoordinatorSettings := do
  let d := default e
  let f ← fields? ["host", "user", "call_timeout", "discovery_timeout", "restart_wait",
    "restart_poll"] j
  pure {
    host := ← f.defaulted? "host" text? d.host
    user := ← f.defaulted? "user" text? d.user
    callTimeout := ← f.defaulted? "call_timeout" text? d.callTimeout
    discoveryTimeout := ← f.defaulted? "discovery_timeout" text? d.discoveryTimeout
    restartWait := ← f.defaulted? "restart_wait" text? d.restartWait
    restartPoll := ← f.defaulted? "restart_poll" text? d.restartPoll }

def toJson (s : CoordinatorSettings) : Json :=
  .obj [("host", .str s.host), ("user", .str s.user), ("call_timeout", .str s.callTimeout),
    ("discovery_timeout", .str s.discoveryTimeout), ("restart_wait", .str s.restartWait),
    ("restart_poll", .str s.restartPoll)]

end CoordinatorSettings

namespace Settings

def ofTree? (e : Environment) (j : Json) : Option Settings := do
  let f ← fields? ["node", "coordinator", "log_level"] j
  pure {
    node := ← f.defaulted? "node" NodeSettings.ofSettings? .default
    coordinator := ← f.defaulted? "coordinator" (CoordinatorSettings.ofSettings? e) (.default e)
    logLevel := ← f.defaulted? "log_level" (Json.nullable? text?) none }

/-- Where the file of the settings is named. -/
inductive Origin where
  | nowhere
  /-- By whoever starts the program. The file has to be there. -/
  | argument (file : String)
  /-- By the environment. The file may be missing. -/
  | environment (file : String)

/-- The entries of the file that is named. -/
def fileEntries? (files : Files) : Origin → Option (List (String × Json))
  | .nowhere => some []
  | .argument file => (files.read file).toOption
  | .environment file =>
    match files.read file with
    | .ok entries => some entries
    | .error .notFound => some []
    | .error .malformed => none

inductive Fault where
  | unreadable
  | blankName
deriving DecidableEq

/-- The wording of a fault. What is said of a file that cannot be read is left
open. -/
def Fault.toError : Fault → Error
  | .unreadable => .invalidConfig ""
  | .blankName => .invalidConfig "node name cannot be empty"

/-- A node has a name that is not blank. -/
def check (s : Settings) : Except Fault Settings :=
  if (Text.trim s.node.name.toList).isEmpty then .error .blankName else .ok s

/-- The variable that names the file of the settings. -/
def fileVariable : String := "DYNCONF_CONFIG"

/-- The settings in the file under the environment. A file named by argument
goes before one that the environment names. -/
def load (files : Files) (e : Environment) (argument : Option String) : Except Fault Settings :=
  let origin := match argument, e.get? fileVariable with
    | some file, _ => .argument file
    | none, some file => .environment file
    | none, none => .nowhere
  let tree := (fileEntries? files origin).map fun entries =>
    layer e.settings (layer entries (.obj []))
  match tree.bind (ofTree? e) with
  | none => .error .unreadable
  | some s => check s

/-- Messages are written from this level on. -/
def level (s : Settings) : String := s.logLevel.getD "info"

def toJson (s : Settings) : Json :=
  .obj [("node", s.node.toJson), ("coordinator", s.coordinator.toJson),
    ("log_level", .ofOption .str s.logLevel)]

end Settings

def Cluster.ofFile? (files : Files) (file : String) : Option Cluster := do
  Cluster.ofSettings? (layer (← (files.read file).toOption) (.obj []))

end Reconfig
