/-
Topologies and changes as documents in a store.

Their documents consist of texts and of numbers that are read exactly. A topology nests
no deeper than the settings of a node, but nothing bounds how deeply the batches of a
change nest.
-/
import Reconfig.Proofs.Store.ReadBack
import Reconfig.Topology.Wire

namespace Reconfig
namespace Json

theorem plain_dict_toJson {α : Type} {f : α → Json} (each : ∀ a, (f a).Plain) (d : Dict α) :
    (d.toJson f).Plain := by
  refine plainMembers_iff.2 fun m mem => ?_
  obtain ⟨entry, -, rfl⟩ := List.mem_map.1 mem
  exact each entry.2

theorem plain_texts (d : Dict String) : (d.toJson .str).Plain :=
  plain_dict_toJson (f := .str) (fun _ => trivial) d

theorem depth_dict_toJson_le {α : Type} {f : α → Json} {n : Nat}
    (each : ∀ a, (f a).depth ≤ n) (d : Dict α) : (d.toJson f).depth ≤ n + 1 := by
  refine Nat.succ_le_succ (membersDepth_le_iff.2 fun m mem => ?_)
  obtain ⟨entry, -, rfl⟩ := List.mem_map.1 mem
  exact each entry.2

theorem depth_texts_le (d : Dict String) : (d.toJson .str).depth ≤ 1 :=
  depth_dict_toJson_le (f := .str) (fun _ => Nat.le_refl _) d

theorem depth_array_le {α : Type} {f : α → Json} {n : Nat} (each : ∀ a, (f a).depth ≤ n)
    (as : List α) : (Json.arr (as.map f)).depth ≤ n + 1 := by
  refine Nat.succ_le_succ (itemsDepth_le_iff.2 fun item mem => ?_)
  obtain ⟨a, -, rfl⟩ := List.mem_map.1 mem
  exact each a

/-- A value that may be left out nests no more than null does, if it is no container. -/
theorem depth_ofOption {α : Type} {f : α → Json} (leaf : ∀ a, (f a).depth = 0) (a : Option α) :
    (ofOption f a).depth = 0 := by
  cases a with
  | none => rfl
  | some a => exact leaf a

mutual

/-- Of members with one name only the last stays, so the canonical form may be
shallower. -/
theorem depth_canonical_le (j : Json) : j.canonical.depth ≤ j.depth := by
  match j with
  | .null | .bool _ | .int _ | .float _ | .str _ => exact Nat.le_refl _
  | .arr items =>
    rw [canonical]
    exact Nat.succ_le_succ (itemsDepth_canonicalItems_le items)
  | .obj members =>
    rw [canonical]
    refine Nat.succ_le_succ (membersDepth_le_iff.2 fun m mem => ?_)
    exact depth_le_of_mem_canonicalMembers members m (Dict.mem_ofList mem)

theorem itemsDepth_canonicalItems_le (items : List Json) :
    itemsDepth (canonicalItems items) ≤ itemsDepth items := by
  match items with
  | [] => exact Nat.le_refl _
  | item :: rest =>
    have first := depth_canonical_le item
    have others := itemsDepth_canonicalItems_le rest
    rw [canonicalItems, itemsDepth, itemsDepth]
    omega

theorem depth_le_of_mem_canonicalMembers (members : List (String × Json)) (m : String × Json)
    (mem : m ∈ canonicalMembers members) : m.2.depth ≤ membersDepth members := by
  match members with
  | [] => cases mem
  | (name, value) :: rest =>
    rw [membersDepth]
    rcases List.mem_cons.1 mem with rfl | mem
    · have first := depth_canonical_le value
      dsimp only
      omega
    · have others := depth_le_of_mem_canonicalMembers rest m mem
      omega

end

end Json

open Json

namespace Node

theorem plain_toJson (n : Node) : n.toJson.Plain := by
  have port : n.port.toNat < 2 ^ 16 := n.port.toNat_lt
  exact ⟨trivial, trivial, plain_ofNat (by omega),
    plain_dict_toJson (fun size => plain_ofNat size.toNat_lt) _, plain_texts _, trivial⟩

theorem depth_toJson_le (n : Node) : n.toJson.depth ≤ 2 := by
  have offheap : (n.offheap.toJson fun size => Json.ofNat size.toNat).depth ≤ 1 :=
    depth_dict_toJson_le (f := fun size : UInt64 => .ofNat size.toNat) (fun _ => Nat.le_refl 0) _
  have settings := depth_texts_le n.settings
  simp only [toJson, depth, membersDepth, Json.ofNat] at offheap ⊢
  omega

end Node

namespace Stripe

theorem plain_toJson (s : Stripe) : s.toJson.Plain := by
  refine ⟨trivial, plainItems_iff.2 fun item mem => ?_, trivial⟩
  obtain ⟨n, -, rfl⟩ := List.mem_map.1 mem
  exact n.plain_toJson

theorem depth_toJson_le (s : Stripe) : s.toJson.depth ≤ 4 := by
  have nodes := depth_array_le Node.depth_toJson_le s.nodes
  simp only [toJson, depth, membersDepth] at nodes ⊢
  omega

end Stripe

namespace Cluster

theorem plain_toJson (c : Cluster) : c.toJson.Plain := by
  refine ⟨trivial, plainItems_iff.2 fun item mem => ?_, plain_texts _, trivial⟩
  obtain ⟨s, -, rfl⟩ := List.mem_map.1 mem
  exact s.plain_toJson

theorem depth_toJson_le (c : Cluster) : c.toJson.depth ≤ 6 := by
  have stripes := depth_array_le Stripe.depth_toJson_le c.stripes
  have settings := depth_texts_le c.settings
  simp only [toJson, depth, membersDepth] at stripes ⊢
  omega

end Cluster

theorem SettingTarget.plain_toJson (target : SettingTarget) : target.toJson.Plain := by
  cases target with
  | cluster => exact ⟨trivial, trivial⟩
  | node address => exact ⟨trivial, trivial, trivial⟩

namespace Change

/-- How deeply the change nests in the form in which it is stored. -/
def depth (c : Change) : Nat := c.toJson.canonical.depth

mutual

theorem plain_toJson (c : Change) : c.toJson.Plain := by
  match c with
  | .activation cluster => exact ⟨trivial, cluster.plain_toJson, trivial⟩
  | .nodeAddition _ node => exact ⟨trivial, trivial, node.plain_toJson, trivial⟩
  | .nodeRemoval _ _ => exact ⟨trivial, trivial, trivial, trivial⟩
  | .stripeAddition stripe => exact ⟨trivial, stripe.plain_toJson, trivial⟩
  | .stripeRemoval _ => exact ⟨trivial, trivial, trivial⟩
  | .setting _ target _ value =>
    refine ⟨trivial, trivial, target.plain_toJson, trivial, ?_, trivial⟩
    cases value <;> exact trivial
  | .batch changes => exact ⟨trivial, plainItems_toJsonAll changes, trivial⟩

theorem plainItems_toJsonAll (changes : List Change) : PlainItems (toJsonAll changes) := by
  match changes with
  | [] => exact trivial
  | c :: rest => exact ⟨plain_toJson c, plainItems_toJsonAll rest⟩

end

end Change
end Reconfig
