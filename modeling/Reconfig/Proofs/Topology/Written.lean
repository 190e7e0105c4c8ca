/-
Topologies and changes are read back from the documents that are written of them.

What is written is not in canonical form: members stand in the order of the fields. A batch holds
its changes in a list, so the fuel of the reader goes down by the depth that the list adds.
-/
import Reconfig.Proofs.Json.Written
import Reconfig.Proofs.Topology.Documents
import Reconfig.Proofs.Topology.StoredForm

namespace Reconfig

open Json

namespace Node

theorem ofJson?_toJson (n : Node) : ofJson? n.toJson = some n := by
  have offheap : dictOf? asUInt64? (n.offheap.toJson fun size => .ofNat size.toNat) =
      some n.offheap := dictOf?_map _ asUInt64?_ofNat
  have settings : dictOf? asString? (n.settings.toJson .str) = some n.settings :=
    dictOf?_map _ fun _ => rfl
  rw [toJson, ofJson?, fields?_obj _ (by simp)]
  simp [asString?, asUInt16?_ofNat, offheap, settings]

end Node

namespace Stripe

theorem ofJson?_toJson (s : Stripe) : ofJson? s.toJson = some s := by
  have nodes : listOf? Node.ofJson? (.arr (s.nodes.map Node.toJson)) = some s.nodes :=
    listOf?_map fun n _ => n.ofJson?_toJson
  rw [toJson, ofJson?, fields?_obj _ (by simp)]
  simp [asString?, nodes]

end Stripe

namespace Cluster

theorem ofJson?_toJson (c : Cluster) : ofJson? c.toJson = some c := by
  have stripes : listOf? Stripe.ofJson? (.arr (c.stripes.map Stripe.toJson)) = some c.stripes :=
    listOf?_map fun s _ => s.ofJson?_toJson
  have settings : dictOf? asString? (c.settings.toJson .str) = some c.settings :=
    dictOf?_map _ fun _ => rfl
  rw [toJson, ofJson?, fields?_obj _ (by simp)]
  simp [asString?, stripes, settings]

theorem kept (c : Cluster) : Kept toJson ofJson? c := ⟨c.plain_toJson, c.ofJson?_toJson⟩

/-- Topologies with different contents are hashed over different bytes. -/
theorem bytes_inj {c d : Cluster} (same : c.toJson.bytes = d.toJson.bytes) : c = d := by
  have shallow : ∀ e : Cluster, e.toJson.depth ≤ depthLimit := fun e =>
    Nat.le_trans e.depth_toJson_le (by decide)
  have same : c.toJson.text = d.toJson.text := Text.utf8_injective same
  have readC := c.kept.survivesText.shallow (shallow c)
  have readD := d.kept.survivesText.shallow (shallow d)
  rw [← same, readC] at readD
  exact Option.some.inj readD

end Cluster

theorem SettingTarget.ofJson?_toJson (target : SettingTarget) :
    ofJson? target.toJson = some target := by
  cases target with
  | cluster => rfl
  | node address => rfl

namespace Change

/-- A change is read from the document that is written of it, if the fuel is enough for its
batches. -/
theorem read?_toJson (change : Change) (fuel : Nat) (inBatch : Bool)
    (enough : change.toJson.depth < fuel) : read? fuel inBatch change.toJson = some change := by
  induction fuel generalizing change inBatch with
  | zero => exact absurd enough (Nat.not_lt_zero _)
  | succ fuel ih =>
    cases change with
    | activation cluster =>
      rw [toJson, read?, tagged?_cons _ (by simp)]
      simp [variantOf?, typeNames, fields?_obj, Cluster.ofJson?_toJson]
    | nodeAddition stripe node =>
      rw [toJson, read?, tagged?_cons _ (by simp)]
      simp [variantOf?, typeNames, fields?_obj, asString?, Node.ofJson?_toJson]
    | nodeRemoval stripe address =>
      rw [toJson, read?, tagged?_cons _ (by simp)]
      simp [variantOf?, typeNames, fields?_obj, asString?]
    | stripeAddition stripe =>
      rw [toJson, read?, tagged?_cons _ (by simp)]
      simp [variantOf?, typeNames, fields?_obj, Stripe.ofJson?_toJson]
    | stripeRemoval stripe =>
      rw [toJson, read?, tagged?_cons _ (by simp)]
      simp [variantOf?, typeNames, fields?_obj, asString?]
    | setting op target name value =>
      have value : nullable? asString? (ofOption .str value) = some value :=
        nullable?_ofOption (by simp) fun _ _ => rfl
      rw [toJson, read?, tagged?_cons _ (by simp)]
      simp [variantOf?, typeNames, fields?_obj, asString?, SettingOp.ofJson?_name,
        SettingTarget.ofJson?_toJson, value]
    | batch changes =>
      have items : listOf? (read? fuel true) (.arr (toJsonAll changes)) = some changes := by
        rw [toJsonAll_eq_map]
        refine listOf?_map fun item mem => ?_
        have inner : item.toJson ∈ toJsonAll changes := by
          rw [toJsonAll_eq_map]
          exact List.mem_map_of_mem mem
        have := depth_le_itemsDepth inner
        simp only [toJson, Json.depth, membersDepth] at enough
        exact ih item true (by omega)
      rw [toJson, read?, tagged?_cons _ (by simp)]
      simp [variantOf?, typeNames, fields?_obj, items]

theorem ofJson?_toJson (change : Change) : ofJson? change.toJson = some change :=
  read?_toJson change _ _ (Nat.lt_succ_self _)

theorem kept (change : Change) : Kept toJson ofJson? change :=
  ⟨change.plain_toJson, change.ofJson?_toJson⟩

end Change
end Reconfig
