/-
The topology of a cluster: stripes of nodes, and settings.
-/
import Reconfig.Dict

namespace Reconfig

structure Node where
  name : String
  hostname : String
  port : UInt16
  /-- The size of each off-heap resource in megabytes. -/
  offheap : Dict UInt64
  settings : Dict String
deriving DecidableEq

/-- Nodes that replicate each other. -/
structure Stripe where
  name : String
  nodes : List Node
deriving DecidableEq

structure Cluster where
  name : String
  stripes : List Stripe
  settings : Dict String
deriving DecidableEq

/-- Changes the first element that satisfies the predicate. -/
def updateFirst? {α : Type} (p : α → Bool) (f : α → α) : List α → Option (List α)
  | [] => none
  | a :: rest => if p a then some (f a :: rest) else (updateFirst? p f rest).map (a :: ·)

namespace Node

def address (n : Node) : String := n.hostname ++ ":" ++ toString n.port.toNat

/-- The sum of all sizes. It wraps around, as sums do in a program that is built without checks
for overflow. -/
def offheapTotal (n : Node) : UInt64 := n.offheap.values.foldl (· + ·) 0

end Node

namespace Stripe

def contains (s : Stripe) (address : String) : Bool := s.nodes.any (·.address == address)

end Stripe

namespace Cluster

/-- The nodes of all stripes, in the order of the stripes. -/
def nodes (c : Cluster) : List Node := c.stripes.flatMap (·.nodes)

def addresses (c : Cluster) : List String := c.nodes.map (·.address)

def contains (c : Cluster) (address : String) : Bool := c.stripes.any (·.contains address)

def findNode? (c : Cluster) (address : String) : Option Node :=
  c.nodes.find? (·.address == address)

def findStripe? (c : Cluster) (name : String) : Option Stripe := c.stripes.find? (·.name == name)

def updateStripe? (c : Cluster) (name : String) (f : Stripe → Stripe) : Option Cluster :=
  (updateFirst? (·.name == name) f c.stripes).map fun stripes => { c with stripes }

/-- Changes the first node with the address. -/
def updateNode? (c : Cluster) (address : String) (f : Node → Node) : Option Cluster :=
  let inStripe (s : Stripe) : Stripe :=
    { s with nodes := (updateFirst? (·.address == address) f s.nodes).getD s.nodes }
  (updateFirst? (·.contains address) inStripe c.stripes).map fun stripes => { c with stripes }

/-- The sum of the totals of all nodes. It wraps around as they do. -/
def offheapTotal (c : Cluster) : UInt64 := (c.nodes.map (·.offheapTotal)).foldl (· + ·) 0

def offheapSizes (c : Cluster) : List UInt64 := c.nodes.flatMap (·.offheap.values)

end Cluster
end Reconfig
