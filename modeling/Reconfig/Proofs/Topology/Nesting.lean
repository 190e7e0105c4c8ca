/-
How deeply a change nests when it is written again after it was read.

Members that may be left out of a document are written all the same, and a node without them is
then one level deeper than it was. Nothing else that is read gets deeper, however it was given.
-/
import Reconfig.Proofs.Topology.Documents
import Reconfig.Proofs.Topology.StoredForm

namespace Reconfig
namespace Json

variable {α : Type} {j v : Json} {names : List String} {f : Fields}

/-! ## Parts of a document -/

theorem depth_le_membersDepth {m : String × Json} {members : List (String × Json)}
    (mem : m ∈ members) : m.2.depth ≤ membersDepth members :=
  membersDepth_le_iff.1 (Nat.le_refl _) m mem

theorem depth_lt_of_find? (fields : fields? names j = some f) {name : String}
    (found : f.find? name = some v) : v.depth < j.depth := by
  cases j with
  | arr items =>
    rw [fields?] at fields
    split at fields
    · cases fields
    · cases fields
      obtain ⟨before, after, split, -⟩ := List.lookup_eq_some_iff.1 found
      have mem : (name, v) ∈ names.zip items := by simp [split]
      exact Nat.lt_succ_of_le (depth_le_itemsDepth (List.of_mem_zip mem).2)
  | obj members =>
    rw [fields?] at fields
    split at fields
    · cases fields
    · cases fields
      obtain ⟨before, after, split, -⟩ := List.lookup_eq_some_iff.1 found
      have mem : (name, v) ∈ members := by simp [split]
      exact Nat.lt_succ_of_le (depth_le_membersDepth mem)
  | _ => cases fields

theorem depth_pos_of_fields? (fields : fields? names j = some f) : 0 < j.depth := by
  cases j with
  | arr items => exact Nat.succ_pos _
  | obj members => exact Nat.succ_pos _
  | _ => cases fields

theorem depth_le_of_tagged? {tag : String} {value body : Json}
    (tagged : tagged? tag j = some (value, body)) : 0 < j.depth ∧ body.depth ≤ j.depth := by
  cases j with
  | arr items =>
    cases items with
    | nil => cases tagged
    | cons item rest =>
      cases tagged
      exact ⟨Nat.succ_pos _, Nat.succ_le_succ (Nat.le_max_right _ _)⟩
  | obj members =>
    rw [tagged?] at tagged
    split at tagged
    · cases tagged
      refine ⟨Nat.succ_pos _, Nat.succ_le_succ (membersDepth_le_iff.2 fun m mem => ?_)⟩
      exact depth_le_membersDepth (List.mem_filter.1 mem).1
    · cases tagged
  | _ => cases tagged

/-! ## Values that get little deeper -/

/-- What is read of a document nests at most one level more when it is written again. -/
def StaysShallow (write : α → Json) (read : Json → Option α) : Prop :=
  ∀ j a, read j = some a → (write a).depth ≤ j.depth + 1

theorem depth_of_required? {name : String} {read : Json → Option α} {write : α → Json} {a : α}
    (shallow : StaysShallow write read) (fields : fields? names j = some f)
    (required : f.required? name read = some a) : (write a).depth ≤ j.depth := by
  obtain ⟨v, found, value⟩ := Option.bind_eq_some_iff.1 required
  have inside := depth_lt_of_find? fields found
  have outside := shallow v a value
  omega

theorem exists_mem_of_mapM {β : Type} {read : β → Option α} {items : List β} {as : List α}
    (each : items.mapM read = some as) {a : α} (mem : a ∈ as) :
    ∃ item ∈ items, read item = some a := by
  induction items generalizing as with
  | nil =>
    cases each
    cases mem
  | cons item rest ih =>
    rw [List.mapM_cons] at each
    obtain ⟨first, head, each⟩ := Option.bind_eq_some_iff.1 each
    obtain ⟨others, tail, each⟩ := Option.bind_eq_some_iff.1 each
    cases each
    rcases List.mem_cons.1 mem with rfl | mem
    · exact ⟨item, List.mem_cons_self, head⟩
    · obtain ⟨inner, listed, value⟩ := ih tail mem
      exact ⟨inner, List.mem_cons_of_mem item listed, value⟩

theorem StaysShallow.listOf? {write : α → Json} {read : Json → Option α}
    (shallow : StaysShallow write read) :
    StaysShallow (fun items : List α => .arr (items.map write)) (Json.listOf? read) := by
  intro j as list
  obtain ⟨items, array, each⟩ := Option.bind_eq_some_iff.1 list
  cases j with
  | arr listed =>
    cases array
    refine Nat.succ_le_succ (itemsDepth_le_iff.2 fun written mem => ?_)
    obtain ⟨a, member, rfl⟩ := List.mem_map.1 mem
    obtain ⟨item, listed, value⟩ := exists_mem_of_mapM each member
    have outside := shallow item a value
    have inside := depth_le_itemsDepth listed
    simp only [depth]
    omega
  | _ => cases array

end Json

open Json

theorem Node.staysShallow : StaysShallow toJson ofJson? := by
  intro j n read
  obtain ⟨f, fields, -⟩ := Option.bind_eq_some_iff.1 read
  have container := depth_pos_of_fields? fields
  have written := n.depth_toJson_le
  omega

theorem Stripe.staysShallow : StaysShallow toJson ofJson? := by
  intro j s read
  obtain ⟨f, fields, read⟩ := Option.bind_eq_some_iff.1 read
  obtain ⟨name, -, read⟩ := Option.bind_eq_some_iff.1 read
  obtain ⟨nodes, listed, read⟩ := Option.bind_eq_some_iff.1 read
  cases read
  have nodes := depth_of_required? Node.staysShallow.listOf? fields listed
  simp only [toJson, depth, membersDepth] at nodes ⊢
  omega

theorem Cluster.staysShallow : StaysShallow toJson ofJson? := by
  intro j c read
  obtain ⟨f, fields, read⟩ := Option.bind_eq_some_iff.1 read
  obtain ⟨name, -, read⟩ := Option.bind_eq_some_iff.1 read
  obtain ⟨stripes, listed, read⟩ := Option.bind_eq_some_iff.1 read
  obtain ⟨settings, -, read⟩ := Option.bind_eq_some_iff.1 read
  cases read
  have container := depth_pos_of_fields? fields
  have stripes := depth_of_required? Stripe.staysShallow.listOf? fields listed
  have settings := depth_texts_le settings
  simp only [toJson, depth, membersDepth] at stripes ⊢
  omega

theorem SettingTarget.depth_toJson_le (target : SettingTarget) : target.toJson.depth ≤ 1 := by
  cases target with
  | cluster => decide
  | node address => exact Nat.le_refl 1

namespace Change

theorem read?_staysShallow (fuel : Nat) (inBatch : Bool) :
    StaysShallow toJson (read? fuel inBatch) := by
  induction fuel generalizing inBatch with
  | zero =>
    intro j c read
    cases read
  | succ fuel ih =>
    intro j c read
    rw [read?] at read
    obtain ⟨⟨tag, body⟩, tagged, read⟩ := Option.bind_eq_some_iff.1 read
    obtain ⟨name, -, read⟩ := Option.bind_eq_some_iff.1 read
    obtain ⟨container, inside⟩ := depth_le_of_tagged? tagged
    -- the types of changes, in the order in which the reader tries them
    split at read
    · obtain ⟨f, fields, read⟩ := Option.bind_eq_some_iff.1 read
      obtain ⟨cluster, given, read⟩ := Option.bind_eq_some_iff.1 read
      cases read
      have cluster := depth_of_required? Cluster.staysShallow fields given
      simp only [toJson, Json.depth, membersDepth]
      omega
    · obtain ⟨f, fields, read⟩ := Option.bind_eq_some_iff.1 read
      obtain ⟨stripe, -, read⟩ := Option.bind_eq_some_iff.1 read
      obtain ⟨node, given, read⟩ := Option.bind_eq_some_iff.1 read
      cases read
      have node := depth_of_required? Node.staysShallow fields given
      simp only [toJson, Json.depth, membersDepth]
      omega
    · obtain ⟨f, -, read⟩ := Option.bind_eq_some_iff.1 read
      obtain ⟨stripe, -, read⟩ := Option.bind_eq_some_iff.1 read
      obtain ⟨address, -, read⟩ := Option.bind_eq_some_iff.1 read
      cases read
      simp only [toJson, Json.depth, membersDepth]
      omega
    · obtain ⟨f, fields, read⟩ := Option.bind_eq_some_iff.1 read
      obtain ⟨stripe, given, read⟩ := Option.bind_eq_some_iff.1 read
      cases read
      have stripe := depth_of_required? Stripe.staysShallow fields given
      simp only [toJson, Json.depth, membersDepth]
      omega
    · obtain ⟨f, -, read⟩ := Option.bind_eq_some_iff.1 read
      obtain ⟨stripe, -, read⟩ := Option.bind_eq_some_iff.1 read
      cases read
      simp only [toJson, Json.depth, membersDepth]
      omega
    · obtain ⟨f, -, read⟩ := Option.bind_eq_some_iff.1 read
      obtain ⟨op, -, read⟩ := Option.bind_eq_some_iff.1 read
      obtain ⟨target, -, read⟩ := Option.bind_eq_some_iff.1 read
      obtain ⟨name, -, read⟩ := Option.bind_eq_some_iff.1 read
      obtain ⟨value, -, read⟩ := Option.bind_eq_some_iff.1 read
      cases read
      have target := target.depth_toJson_le
      have value := depth_ofOption (f := .str) (fun _ => rfl) value
      simp only [toJson, Json.depth, membersDepth]
      omega
    · obtain ⟨f, fields, read⟩ := Option.bind_eq_some_iff.1 read
      obtain ⟨changes, listed, read⟩ := Option.bind_eq_some_iff.1 read
      cases read
      have changes := depth_of_required? (ih true).listOf? fields listed
      rw [toJson, toJsonAll_eq_map]
      simp only [Json.depth, membersDepth] at changes ⊢
      omega
    · cases read

theorem staysShallow : StaysShallow toJson ofJson? := fun j c read =>
  read?_staysShallow _ _ j c read

end Change
end Reconfig
