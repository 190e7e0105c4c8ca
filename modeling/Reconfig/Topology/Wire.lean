/-
Topologies and changes as documents.
-/
import Reconfig.Json.Fields
import Reconfig.Topology.Validation

namespace Reconfig

open Json

def Dict.toJson {α : Type} (f : α → Json) (d : Dict α) : Json :=
  .obj (d.entries.map fun entry => (entry.1, f entry.2))

def Json.asUInt16? (j : Json) : Option UInt16 := (j.asNat? (2 ^ 16)).map UInt16.ofNat

def Json.asUInt64? (j : Json) : Option UInt64 := j.asWord64?.map UInt64.ofNat

namespace Node

def toJson (n : Node) : Json :=
  .obj [("name", .str n.name), ("hostname", .str n.hostname), ("port", .ofNat n.port.toNat),
    ("offheap_resources", n.offheap.toJson fun size => .ofNat size.toNat),
    ("settings", n.settings.toJson .str)]

def ofJson? (j : Json) : Option Node := do
  let f ← j.fields? ["name", "hostname", "port", "offheap_resources", "settings"]
  pure {
    name := ← f.required? "name" asString?
    hostname := ← f.required? "hostname" asString?
    port := ← f.required? "port" asUInt16?
    offheap := ← f.defaulted? "offheap_resources" (dictOf? asUInt64?) ∅
    settings := ← f.defaulted? "settings" (dictOf? asString?) ∅ }

end Node

namespace Stripe

def toJson (s : Stripe) : Json :=
  .obj [("name", .str s.name), ("nodes", .arr (s.nodes.map Node.toJson))]

def ofJson? (j : Json) : Option Stripe := do
  let f ← j.fields? ["name", "nodes"]
  pure {
    name := ← f.required? "name" asString?
    nodes := ← f.required? "nodes" (listOf? Node.ofJson?) }

end Stripe

namespace Cluster

def toJson (c : Cluster) : Json :=
  .obj [("name", .str c.name), ("stripes", .arr (c.stripes.map Stripe.toJson)),
    ("settings", c.settings.toJson .str)]

def ofJson? (j : Json) : Option Cluster := do
  let f ← j.fields? ["name", "stripes", "settings"]
  pure {
    name := ← f.required? "name" asString?
    stripes := ← f.required? "stripes" (listOf? Stripe.ofJson?)
    settings := ← f.defaulted? "settings" (dictOf? asString?) ∅ }

end Cluster

namespace Limits

def toJson (l : Limits) : Json :=
  .obj [("max_offheap_mb", ofOption (fun n => .ofNat n.toNat) l.maxOffheap)]

def ofJson? (j : Json) : Option Limits := do
  let f ← j.fields? ["max_offheap_mb"]
  pure ⟨← f.defaulted? "max_offheap_mb" (nullable? asUInt64?) none⟩

end Limits

namespace SettingOp

def name : SettingOp → String
  | .set => "set"
  | .unset => "unset"

def ofJson? (j : Json) : Option SettingOp :=
  match heldVariantName? j with
  | some "set" => some .set
  | some "unset" => some .unset
  | _ => none

end SettingOp

namespace SettingTarget

def toJson : SettingTarget → Json
  | .cluster => .obj [("scope", .str "cluster")]
  | .node address => .obj [("scope", .str "node"), ("address", .str address)]

def ofJson? (j : Json) : Option SettingTarget := do
  let (scope, address) ← j.adjacent? "scope" "address"
  match ← scope.heldVariantName?, address with
  | "cluster", none => some .cluster
  | "cluster", some .null => some .cluster
  | "node", some address => do pure (.node (← address.asString?))
  | _, _ => none

end SettingTarget

namespace Change

mutual

def toJson : Change → Json
  | .activation cluster =>
    .obj [("type", .str "cluster_activation"), ("cluster", cluster.toJson)]
  | .nodeAddition stripe node =>
    .obj [("type", .str "node_addition"), ("stripe", .str stripe), ("node", node.toJson)]
  | .nodeRemoval stripe address =>
    .obj [("type", .str "node_removal"), ("stripe", .str stripe), ("address", .str address)]
  | .stripeAddition stripe =>
    .obj [("type", .str "stripe_addition"), ("stripe", stripe.toJson)]
  | .stripeRemoval stripe => .obj [("type", .str "stripe_removal"), ("stripe", .str stripe)]
  | .setting op target name value =>
    .obj [("type", .str "setting_change"), ("op", .str op.name), ("target", target.toJson),
      ("name", .str name), ("value", ofOption .str value)]
  | .batch changes => .obj [("type", .str "batch"), ("changes", .arr (toJsonAll changes))]

def toJsonAll : List Change → List Json
  | [] => []
  | change :: rest => change.toJson :: toJsonAll rest

end

def typeNames : List String :=
  ["cluster_activation", "node_addition", "node_removal", "stripe_addition", "stripe_removal",
    "setting_change", "batch"]

/-- Reads a change whose batches nest at most as deeply as the fuel says. Only
inside a batch may a type be given by its position. -/
def read? : Nat → Bool → Json → Option Change
  | 0, _, _ => none
  | fuel + 1, inBatch, j => do
    let (tag, body) ← j.tagged? "type"
    match ← tag.variantOf? typeNames inBatch with
    | "cluster_activation" =>
      let f ← body.fields? ["cluster"]
      pure (.activation (← f.required? "cluster" Cluster.ofJson?))
    | "node_addition" =>
      let f ← body.fields? ["stripe", "node"]
      pure (.nodeAddition (← f.required? "stripe" asString?) (← f.required? "node" Node.ofJson?))
    | "node_removal" =>
      let f ← body.fields? ["stripe", "address"]
      pure (.nodeRemoval (← f.required? "stripe" asString?) (← f.required? "address" asString?))
    | "stripe_addition" =>
      let f ← body.fields? ["stripe"]
      pure (.stripeAddition (← f.required? "stripe" Stripe.ofJson?))
    | "stripe_removal" =>
      let f ← body.fields? ["stripe"]
      pure (.stripeRemoval (← f.required? "stripe" asString?))
    | "setting_change" =>
      let f ← body.fields? ["op", "target", "name", "value"]
      pure (.setting (← f.required? "op" SettingOp.ofJson?)
        (← f.required? "target" SettingTarget.ofJson?) (← f.required? "name" asString?)
        (← f.optional? "value" asString?))
    | "batch" =>
      let f ← body.fields? ["changes"]
      pure (.batch (← f.required? "changes" (listOf? (read? fuel true))))
    | _ => none

/-- A batch holds its changes at a greater depth, so the depth of the document
is fuel enough. -/
def ofJson? (j : Json) : Option Change := read? (j.depth + 1) false j

end Change
end Reconfig
