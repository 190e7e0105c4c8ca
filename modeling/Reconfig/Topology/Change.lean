/-
Changes to a topology.

A change is a function from the present topology to the next one, so applying
it twice to one topology gives one result. A node that is not activated has no
present topology.
-/
import Reconfig.Topology.Cluster

namespace Reconfig

inductive SettingOp where
  | set
  | unset
deriving DecidableEq

inductive SettingTarget where
  | cluster
  | node (address : String)
deriving DecidableEq

inductive Change where
  /-- Gives a node that is not activated its first topology. -/
  | activation (cluster : Cluster)
  | nodeAddition (stripe : String) (node : Node)
  | nodeRemoval (stripe address : String)
  | stripeAddition (stripe : Stripe)
  | stripeRemoval (stripe : String)
  | setting (op : SettingOp) (target : SettingTarget) (name : String) (value : Option String)
  /-- Applies the changes in order as one. -/
  | batch (changes : List Change)
deriving Inhabited

namespace Change

/-- Why a change does not apply to a topology. -/
inductive Fault where
  | alreadyActivated (cluster : String)
  | notActivated
  | emptyBatch
  | nodePresent (address : String)
  | nodeAbsent (address stripe : String)
  | stripePresent (stripe : String)
  | stripeAbsent (stripe : String)
  | unknownNode (address : String)
  | valueMissing (setting : String)
deriving DecidableEq

def Fault.message : Fault → String
  | .alreadyActivated cluster => s!"node is already part of cluster '{cluster}'"
  | .notActivated => "node is not activated"
  | .emptyBatch => "empty batch"
  | .nodePresent address => s!"node {address} is already part of the cluster"
  | .nodeAbsent address stripe => s!"node {address} is not part of stripe '{stripe}'"
  | .stripePresent stripe => s!"stripe '{stripe}' already exists"
  | .stripeAbsent stripe => s!"no stripe named '{stripe}'"
  | .unknownNode address => s!"unknown node {address}"
  | .valueMissing name => s!"setting '{name}' needs a value"

/-- The address is looked up in the whole cluster before the stripe. -/
def addNode (c : Cluster) (stripe : String) (node : Node) : Except Fault Cluster :=
  if c.contains node.address then .error (.nodePresent node.address)
  else
    match c.updateStripe? stripe fun s => { s with nodes := s.nodes ++ [node] } with
    | some c => .ok c
    | none => .error (.stripeAbsent stripe)

/-- Every node of the stripe with the address goes. -/
def removeNode (c : Cluster) (stripe address : String) : Except Fault Cluster :=
  match c.findStripe? stripe with
  | none => .error (.stripeAbsent stripe)
  | some s =>
    if s.contains address then
      let keep (s : Stripe) : Stripe := { s with nodes := s.nodes.filter (·.address != address) }
      .ok ((c.updateStripe? stripe keep).getD c)
    else .error (.nodeAbsent address stripe)

def addStripe (c : Cluster) (stripe : Stripe) : Except Fault Cluster :=
  if (c.findStripe? stripe.name).isSome then .error (.stripePresent stripe.name)
  else .ok { c with stripes := c.stripes ++ [stripe] }

/-- Every stripe of the name goes. -/
def removeStripe (c : Cluster) (stripe : String) : Except Fault Cluster :=
  if (c.findStripe? stripe).isSome then
    .ok { c with stripes := c.stripes.filter (·.name != stripe) }
  else .error (.stripeAbsent stripe)

/-- What a change of the named setting does to the settings of its target. -/
def settingUpdate (op : SettingOp) (name : String) (value : Option String) :
    Except Fault (Dict String → Dict String) :=
  match op, value with
  | .set, some value => .ok fun settings => settings.insert name value
  | .set, none => .error (.valueMissing name)
  | .unset, _ => .ok fun settings => settings.erase name

/-- The target is looked up before the value. -/
def changeSetting (c : Cluster) (op : SettingOp) (target : SettingTarget) (name : String)
    (value : Option String) : Except Fault Cluster :=
  match target with
  | .cluster => do
    let update ← settingUpdate op name value
    pure { c with settings := update c.settings }
  | .node address =>
    if (c.findNode? address).isNone then .error (.unknownNode address)
    else do
      let update ← settingUpdate op name value
      let inNode (n : Node) : Node := { n with settings := update n.settings }
      pure ((c.updateNode? address inNode).getD c)

/-- The present topology, which every change but an activation needs. -/
def present : Option Cluster → Except Fault Cluster
  | some c => .ok c
  | none => .error .notActivated

mutual

def apply : Change → Option Cluster → Except Fault Cluster
  | .activation cluster, none => .ok cluster
  | .activation _, some c => .error (.alreadyActivated c.name)
  | .nodeAddition stripe node, current => do addNode (← present current) stripe node
  | .nodeRemoval stripe address, current => do removeNode (← present current) stripe address
  | .stripeAddition stripe, current => do addStripe (← present current) stripe
  | .stripeRemoval stripe, current => do removeStripe (← present current) stripe
  | .setting op target name value, current => do
    changeSetting (← present current) op target name value
  | .batch changes, current => do
    match ← applyAll changes current with
    | some c => pure c
    | none => .error .emptyBatch

/-- The topology after each change is the present one of the next. -/
def applyAll : List Change → Option Cluster → Except Fault (Option Cluster)
  | [], current => .ok current
  | change :: rest, current => do
    let next ← apply change current
    applyAll rest (some next)

end

def targetText : SettingTarget → String
  | .cluster => "cluster"
  | .node address => s!"node {address}"

mutual

def summary : Change → String
  | .activation c =>
    s!"Activating cluster '{c.name}' ({c.stripes.length} stripe(s), {c.nodes.length} node(s))"
  | .nodeAddition stripe node =>
    s!"Attaching node {node.address} ({node.name}) to stripe '{stripe}'"
  | .nodeRemoval stripe address => s!"Detaching node {address} from stripe '{stripe}'"
  | .stripeAddition stripe =>
    s!"Attaching stripe '{stripe.name}' with {stripe.nodes.length} node(s)"
  | .stripeRemoval stripe => s!"Detaching stripe '{stripe}'"
  | .setting .set target name (some value) => s!"set {name}={value} on {targetText target}"
  | .setting _ target name _ => s!"unset {name} on {targetText target}"
  | .batch changes => ", ".intercalate (summaries changes)

def summaries : List Change → List String
  | [] => []
  | change :: rest => change.summary :: summaries rest

end

mutual

/-- Whether committing the change can alter the set of running nodes. -/
def isTopologyChange : Change → Bool
  | .setting .. => false
  | .batch changes => anyTopologyChange changes
  | _ => true

def anyTopologyChange : List Change → Bool
  | [] => false
  | change :: rest => change.isTopologyChange || anyTopologyChange rest

end

end Change
end Reconfig
