/-
Topologies and changes are read back from the canonical form of their documents.
-/
import Reconfig.Proofs.Json.Canonical

namespace Reconfig

open Json

theorem asUInt16?_ofNat (n : UInt16) : asUInt16? (.ofNat n.toNat) = some n := by
  have := n.toNat_lt
  simp [asUInt16?, asNat?, Json.ofNat, this]

theorem asUInt64?_ofNat (n : UInt64) : asUInt64? (.ofNat n.toNat) = some n := by
  have : n.toNat < Text.word64 := n.toNat_lt
  simp [asUInt64?, asWord64?, asNat?, Json.ofNat, this]

namespace Dict

theorem ofJson?_texts (d : Dict String) :
    dictOf? asString? (d.toJson .str).canonical = some d := by
  rw [canonical_dict_toJson]
  exact dictOf?_map d fun _ => rfl

theorem ofJson?_sizes (d : Dict UInt64) :
    dictOf? asUInt64? (d.toJson fun size => .ofNat size.toNat).canonical = some d := by
  rw [canonical_dict_toJson]
  exact dictOf?_map d asUInt64?_ofNat

end Dict

namespace Node

theorem ofJson?_canonical (n : Node) : ofJson? n.toJson.canonical = some n := by
  rw [toJson, canonical_obj, ofJson?, fields?_entries]
  simp [Fields.required?, Fields.defaulted?, canonicalDict, canonicalMembers, canonical,
    Dict.ofList, asString?, Dict.ofJson?_texts, Dict.ofJson?_sizes, asUInt16?_ofNat]

end Node

namespace Stripe

theorem ofJson?_canonical (s : Stripe) : ofJson? s.toJson.canonical = some s := by
  have nodes : listOf? Node.ofJson? (.arr (canonicalItems (s.nodes.map Node.toJson))) =
      some s.nodes := by
    rw [canonicalItems_eq_map, List.map_map]
    exact listOf?_map fun n _ => n.ofJson?_canonical
  rw [toJson, canonical_obj, ofJson?, fields?_entries]
  simp [Fields.required?, canonicalDict, canonicalMembers, canonical, Dict.ofList, asString?, nodes]

end Stripe

namespace Cluster

/-- A topology is read back from the form in which it is stored. -/
theorem ofJson?_canonical (c : Cluster) : ofJson? c.toJson.canonical = some c := by
  have stripes : listOf? Stripe.ofJson? (.arr (canonicalItems (c.stripes.map Stripe.toJson))) =
      some c.stripes := by
    rw [canonicalItems_eq_map, List.map_map]
    exact listOf?_map fun s _ => s.ofJson?_canonical
  rw [toJson, canonical_obj, ofJson?, fields?_entries]
  simp [Fields.required?, Fields.defaulted?, canonicalDict, canonicalMembers, canonical,
    Dict.ofList, asString?, stripes, Dict.ofJson?_texts]

end Cluster

namespace SettingOp

theorem ofJson?_name (op : SettingOp) : ofJson? (.str op.name) = some op := by
  cases op <;> rfl

end SettingOp

namespace SettingTarget

theorem ofJson?_canonical (target : SettingTarget) :
    ofJson? target.toJson.canonical = some target := by
  cases target with
  | cluster =>
    rw [toJson, canonical_obj, ofJson?, adjacent?_entries (.str "cluster")
      (by simp [canonicalDict, canonicalMembers, canonical, Dict.ofList])]
    simp [canonicalDict, canonicalMembers, canonical, Dict.ofList, heldVariantName?, variantName?]
  | node address =>
    rw [toJson, canonical_obj, ofJson?, adjacent?_entries (.str "node")
      (by simp [canonicalDict, canonicalMembers, canonical, Dict.ofList])]
    simp [canonicalDict, canonicalMembers, canonical, Dict.ofList, heldVariantName?, variantName?,
      asString?]

end SettingTarget

namespace Change

theorem toJsonAll_eq_map (changes : List Change) : toJsonAll changes = changes.map toJson := by
  induction changes with
  | nil => rfl
  | cons change rest ih => simp [toJsonAll, ih]

/-- A change whose fields are those of the document is what is read from it. The
fuel that a batch leaves is enough for its changes, which lie less deep. -/
theorem read?_canonical (change : Change) (fuel : Nat) (inBatch : Bool)
    (enough : change.toJson.canonical.depth < fuel) :
    read? fuel inBatch change.toJson.canonical = some change := by
  induction fuel generalizing change inBatch with
  | zero => exact absurd enough (Nat.not_lt_zero _)
  | succ fuel ih =>
    cases change with
    | activation cluster =>
      rw [toJson, canonical_obj, read?, tagged?_entries (.str "cluster_activation")
        (by simp [canonicalDict, canonicalMembers, canonical, Dict.ofList])]
      simp [variantOf?, typeNames, fields?_entries, Fields.required?, canonicalDict,
        canonicalMembers, canonical, Dict.ofList, Cluster.ofJson?_canonical]
    | nodeAddition stripe node =>
      rw [toJson, canonical_obj, read?, tagged?_entries (.str "node_addition")
        (by simp [canonicalDict, canonicalMembers, canonical, Dict.ofList])]
      simp [variantOf?, typeNames, fields?_entries, Fields.required?, canonicalDict,
        canonicalMembers, canonical, Dict.ofList, asString?, Node.ofJson?_canonical]
    | nodeRemoval stripe address =>
      rw [toJson, canonical_obj, read?, tagged?_entries (.str "node_removal")
        (by simp [canonicalDict, canonicalMembers, canonical, Dict.ofList])]
      simp [variantOf?, typeNames, fields?_entries, Fields.required?, canonicalDict,
        canonicalMembers, canonical, Dict.ofList, asString?]
    | stripeAddition stripe =>
      rw [toJson, canonical_obj, read?, tagged?_entries (.str "stripe_addition")
        (by simp [canonicalDict, canonicalMembers, canonical, Dict.ofList])]
      simp [variantOf?, typeNames, fields?_entries, Fields.required?, canonicalDict,
        canonicalMembers, canonical, Dict.ofList, Stripe.ofJson?_canonical]
    | stripeRemoval stripe =>
      rw [toJson, canonical_obj, read?, tagged?_entries (.str "stripe_removal")
        (by simp [canonicalDict, canonicalMembers, canonical, Dict.ofList])]
      simp [variantOf?, typeNames, fields?_entries, Fields.required?, canonicalDict,
        canonicalMembers, canonical, Dict.ofList, asString?]
    | setting op target name value =>
      rw [toJson, canonical_obj, read?, tagged?_entries (.str "setting_change")
        (by simp [canonicalDict, canonicalMembers, canonical, Dict.ofList])]
      cases value <;>
        simp [variantOf?, typeNames, fields?_entries, Fields.required?, Fields.optional?, nullable?,
          canonicalDict, canonicalMembers, canonical, Dict.ofList, asString?, Json.ofOption,
          SettingOp.ofJson?_name, SettingTarget.ofJson?_canonical]
    | batch changes =>
      rw [toJson, canonical_obj] at enough ⊢
      have found : (canonicalDict
          [("type", .str "batch"), ("changes", .arr (toJsonAll changes))]).get? "changes" =
            some (.arr (canonicalItems (toJsonAll changes))) := by
        simp [canonicalDict, canonicalMembers, canonical, Dict.ofList]
      have items : listOf? (read? fuel true) (.arr (canonicalItems (toJsonAll changes))) =
          some changes := by
        rw [canonicalItems_eq_map, toJsonAll_eq_map, List.map_map]
        refine listOf?_map fun item mem => ?_
        have inner : item.toJson.canonical ∈ canonicalItems (toJsonAll changes) := by
          rw [canonicalItems_eq_map, toJsonAll_eq_map, List.map_map]
          exact List.mem_map_of_mem mem
        have := depth_le_itemsDepth inner
        have := depth_lt_of_get? found
        rw [depth] at this
        exact ih item true (by omega)
      rw [read?, tagged?_entries (.str "batch")
        (by simp [canonicalDict, canonicalMembers, canonical, Dict.ofList])]
      simp [variantOf?, typeNames, fields?_entries, Fields.required?, canonicalDict,
        canonicalMembers, canonical, Dict.ofList, items]

/-- A change is read back from the form in which it is stored. -/
theorem ofJson?_canonical (change : Change) : ofJson? change.toJson.canonical = some change :=
  read?_canonical change _ _ (Nat.lt_succ_self _)

end Change
end Reconfig
