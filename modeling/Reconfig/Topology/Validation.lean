/-
Which topologies are well formed, and which stay within the limits.
-/
import Reconfig.Text.Blank
import Reconfig.Topology.Change

namespace Reconfig

inductive StructureFault where
  | blankName
  | noStripe
  | duplicateStripe (name : String)
  | emptyStripe (name : String)
  | noPort (node : String)
  | duplicateNode (name : String)
  | duplicateAddress (address : String)
deriving DecidableEq

def StructureFault.message : StructureFault → String
  | .blankName => "cluster name is empty"
  | .noStripe => "cluster has no stripe"
  | .duplicateStripe name => s!"duplicate stripe name '{name}'"
  | .emptyStripe name => s!"stripe '{name}' has no node"
  | .noPort node => s!"node '{node}' has no port"
  | .duplicateNode name => s!"duplicate node name '{name}'"
  | .duplicateAddress address => s!"duplicate node address {address}"

/-- The names and addresses that were met so far. -/
structure Seen where
  stripes : List String
  nodes : List String
  addresses : List String

namespace Seen

def none : Seen := ⟨[], [], []⟩

def checkNode (seen : Seen) (n : Node) : Except StructureFault Seen :=
  if n.port = 0 then .error (.noPort n.name)
  else if n.name ∈ seen.nodes then .error (.duplicateNode n.name)
  else if n.address ∈ seen.addresses then .error (.duplicateAddress n.address)
  else .ok { seen with nodes := n.name :: seen.nodes, addresses := n.address :: seen.addresses }

def checkStripe (seen : Seen) (s : Stripe) : Except StructureFault Seen :=
  if s.name ∈ seen.stripes then .error (.duplicateStripe s.name)
  else if s.nodes.isEmpty then .error (.emptyStripe s.name)
  else s.nodes.foldlM checkNode { seen with stripes := s.name :: seen.stripes }

end Seen

/-- Names and addresses are unique in the whole cluster, and no stripe is empty. -/
def Cluster.checkStructure (c : Cluster) : Except StructureFault Unit :=
  if (Text.trim c.name.toList).isEmpty then .error .blankName
  else if c.stripes.isEmpty then .error .noStripe
  else do
    let _ ← c.stripes.foldlM Seen.checkStripe Seen.none
    pure ()

/-- The off-heap memory that the whole cluster may have, in megabytes. -/
structure Limits where
  maxOffheap : Option UInt64
deriving DecidableEq

inductive CapacityFault where
  | cluster (provided allowed : Nat)
  | stripe (provided allowed : Nat)
deriving DecidableEq

def CapacityFault.message : CapacityFault → String
  | .cluster provided allowed =>
    "cluster offheap is not within the limit: " ++
      s!"provided {provided} MB, but only {allowed} MB allowed"
  | .stripe provided allowed =>
    "stripe offheap is not within the per-stripe limit: " ++
      s!"provided {provided} MB, but only {allowed} MB allowed"

def Cluster.stripeShare (c : Cluster) (limit : Nat) : Nat := limit / max c.stripes.length 1

/-- The whole cluster stays within the limit, and each resource within the share
of one stripe. -/
def Cluster.checkCapacity (c : Cluster) (limits : Limits) : Except CapacityFault Unit :=
  match limits.maxOffheap with
  | none => .ok ()
  | some limit =>
    if limit < c.offheapTotal then .error (.cluster c.offheapTotal.toNat limit.toNat)
    else
      let share := c.stripeShare limit.toNat
      match c.offheapSizes.find? fun size => decide (share < size.toNat) with
      | some size => .error (.stripe size.toNat share)
      | none => .ok ()

/-- Why a change is refused: it does not apply, or its result may not be. -/
inductive Objection where
  | change (fault : Change.Fault)
  | form (fault : StructureFault)
  | capacity (fault : CapacityFault)
deriving DecidableEq

/-- The result of the change, if it may be. -/
def Change.validate (change : Change) (current : Option Cluster) (limits : Limits) :
    Except Objection Cluster := do
  let result ← (change.apply current).mapError .change
  let _ ← result.checkStructure.mapError .form
  let _ ← (result.checkCapacity limits).mapError .capacity
  pure result

end Reconfig
