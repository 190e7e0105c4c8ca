/-
What batches do, and that it makes no difference how they are nested.

A batch hands the topology on from one change to the next, so the batch of two lists is the batch
of the first one followed by that of the second one. The first one must not be empty, for an empty
batch has nothing to hand on to the second one where there is no topology yet. For the same reason
the changes inside nested batches can be lined up as one batch only if none of those is empty: an
empty one fails where there is no topology, and leaves a gap between two commas in the summary.
-/
import Reconfig.Proofs.Outcome
import Reconfig.Topology.Change

namespace Reconfig
namespace Change

variable {change : Change} {changes xs ys : List Change} {current : Option Cluster}

/-! ## Lists of changes -/

theorem summary_batch (changes : List Change) :
    (batch changes).summary = ", ".intercalate (changes.map summary) := by
  have each : summaries changes = changes.map summary := by
    induction changes with
    | nil => rfl
    | cons change rest ih => exact congrArg (change.summary :: ·) ih
  exact congrArg (", ".intercalate ·) each

theorem anyTopologyChange_eq_any (changes : List Change) :
    anyTopologyChange changes = changes.any isTopologyChange := by
  induction changes with
  | nil => rfl
  | cons change rest ih => rw [anyTopologyChange, ih, List.any_cons]

theorem applyAll_append (xs ys : List Change) (current : Option Cluster) :
    applyAll (xs ++ ys) current = applyAll xs current >>= applyAll ys := by
  induction xs generalizing current with
  | nil => rfl
  | cons change rest ih => simp only [List.cons_append, applyAll, ih, bind_assoc]

theorem applyAll_singleton (change : Change) (current : Option Cluster) :
    applyAll [change] current = (change.apply current).map some := by
  rw [applyAll]
  cases change.apply current <;> rfl

theorem apply_batch_singleton (change : Change) (current : Option Cluster) :
    (batch [change]).apply current = change.apply current := by
  rw [apply, applyAll_singleton]
  cases change.apply current <;> rfl

/-- Where there is a topology, a list of changes cannot lose it. -/
theorem applyAll_some (changes : List Change) (c : Cluster) :
    applyAll changes (some c) = ((batch changes).apply (some c)).map some := by
  rw [apply]
  induction changes generalizing c with
  | nil => rfl
  | cons change rest ih =>
    rw [applyAll]
    cases change.apply (some c) with
    | error fault => rfl
    | ok next => exact ih next

/-- The first change gives a topology, whether there was one before or not. -/
theorem applyAll_of_ne_nil (nonempty : changes ≠ []) (current : Option Cluster) :
    applyAll changes current = ((batch changes).apply current).map some := by
  cases changes with
  | nil => contradiction
  | cons change rest =>
    have later := applyAll_some rest
    rw [apply, applyAll]
    cases change.apply current with
    | error fault => rfl
    | ok next =>
      simp only [apply] at later
      exact later next

theorem apply_batch_append (nonempty : xs ≠ []) (ys : List Change) (current : Option Cluster) :
    (batch (xs ++ ys)).apply current =
      (batch xs).apply current >>= fun c => (batch ys).apply (some c) := by
  rw [apply, applyAll_append, applyAll_of_ne_nil nonempty]
  cases (batch xs).apply current with
  | error fault => rfl
  | ok c =>
    rw [Outcome.map_ok, Outcome.ok_bind, Outcome.ok_bind, apply]

/-- What is joined part by part reads as what is joined at once, if no part is empty. -/
theorem intercalate_flatMap {α : Type} {separator : String} {items : List α}
    {texts : α → List String} (nonempty : ∀ a ∈ items, texts a ≠ []) :
    separator.intercalate (items.flatMap texts) =
      separator.intercalate (items.map fun a => separator.intercalate (texts a)) := by
  induction items with
  | nil => rfl
  | cons a rest ih =>
    obtain ⟨first, others⟩ := List.forall_mem_cons.1 nonempty
    rw [List.flatMap_cons, List.map_cons]
    cases rest with
    | nil => simp
    | cons b rest =>
      have later : (b :: rest).flatMap texts ≠ [] := by
        rw [List.flatMap_cons]
        exact List.append_ne_nil_of_left_ne_nil (others b List.mem_cons_self) _
      rw [String.intercalate_append_of_ne_nil first later, ih others,
        String.intercalate_cons_of_ne_nil (by simp)]

/-! ## Nested batches -/

/-- The change is no batch. -/
def Single (change : Change) : Prop := ∀ changes, change ≠ .batch changes

/-- What holds of single changes, and of a batch if it holds of its changes, holds of all. -/
theorem nested_induction {P : Change → Prop} (single : ∀ change : Change, change.Single → P change)
    (batch : ∀ changes : List Change, (∀ change ∈ changes, P change) → P (.batch changes))
    (change : Change) : P change := by
  match change with
  | .batch changes =>
    exact batch changes fun change _ => nested_induction single batch change
  | .activation .. | .nodeAddition .. | .nodeRemoval .. | .stripeAddition .. | .stripeRemoval ..
  | .setting .. => exact single _ nofun

/-- No batch in the change is empty. -/
inductive Filled : Change → Prop
  | single {change : Change} (single : change.Single) : Filled change
  | batch {changes : List Change} (nonempty : changes ≠ [])
    (each : ∀ change ∈ changes, Filled change) : Filled (.batch changes)

mutual

/-- The single changes of which the change is made, in the order in which they apply. -/
def leaves : Change → List Change
  | .batch changes => leavesAll changes
  | change => [change]

def leavesAll : List Change → List Change
  | [] => []
  | change :: rest => change.leaves ++ leavesAll rest

end

theorem leaves_of_single (single : change.Single) : change.leaves = [change] := by
  cases change with
  | batch changes => exact absurd rfl (single changes)
  | _ => rfl

theorem leavesAll_eq_flatMap (changes : List Change) :
    leavesAll changes = changes.flatMap leaves := by
  induction changes with
  | nil => rfl
  | cons change rest ih => rw [leavesAll, ih, List.flatMap_cons]

theorem leaves_batch (changes : List Change) :
    (batch changes).leaves = changes.flatMap leaves := by
  rw [leaves, leavesAll_eq_flatMap]

theorem single_of_mem_leaves (change : Change) : ∀ leaf ∈ change.leaves, leaf.Single := by
  induction change using nested_induction with
  | single change single =>
    rw [leaves_of_single single]
    exact List.forall_mem_singleton.2 single
  | batch changes ih =>
    rw [leaves_batch, List.forall_mem_flatMap]
    exact ih

theorem isTopologyChange_leaves (change : Change) :
    (batch change.leaves).isTopologyChange = change.isTopologyChange := by
  simp only [isTopologyChange, anyTopologyChange_eq_any]
  induction change using nested_induction with
  | single change single =>
    rw [leaves_of_single single]
    exact Bool.or_false _
  | batch changes ih =>
    rw [leaves_batch, List.any_flatMap, isTopologyChange, anyTopologyChange_eq_any]
    refine Bool.eq_iff_iff.2 (List.any_eq_true.trans (Iff.trans ?_ List.any_eq_true.symm))
    exact exists_congr fun change => and_congr_right fun mem => by rw [ih change mem]

namespace Filled

theorem leaves_ne_nil (filled : change.Filled) : change.leaves ≠ [] := by
  induction filled with
  | single single => simp [leaves_of_single single]
  | batch nonempty each ih =>
    obtain ⟨first, mem⟩ := List.exists_mem_of_ne_nil _ nonempty
    intro none
    rw [leaves_batch, List.flatMap_eq_nil_iff] at none
    exact ih first mem (none first mem)

theorem applyAll_leaves (filled : change.Filled) (current : Option Cluster) :
    applyAll change.leaves current = (change.apply current).map some := by
  induction filled generalizing current with
  | @single change single =>
    rw [leaves_of_single single, applyAll_singleton]
  | @batch changes nonempty each ih =>
    rw [leaves_batch, ← applyAll_of_ne_nil nonempty]
    clear nonempty each
    induction changes generalizing current with
    | nil => rfl
    | cons change rest later =>
      obtain ⟨first, others⟩ := List.forall_mem_cons.1 ih
      rw [List.flatMap_cons, applyAll_append, first, applyAll]
      cases change.apply current with
      | error fault => rfl
      | ok next => exact later others (some next)

theorem apply_leaves (filled : change.Filled) (current : Option Cluster) :
    (Change.batch change.leaves).apply current = change.apply current := by
  rw [apply, filled.applyAll_leaves]
  cases change.apply current <;> rfl

theorem summary_leaves (filled : change.Filled) :
    (Change.batch change.leaves).summary = change.summary := by
  rw [summary_batch]
  induction filled with
  | @single change single =>
    rw [leaves_of_single single]
    exact String.intercalate_singleton
  | @batch changes nonempty each ih =>
    have nonempty : ∀ change ∈ changes, change.leaves.map summary ≠ [] := fun change mem =>
      mt List.map_eq_nil_iff.1 (each change mem).leaves_ne_nil
    rw [leaves_batch, List.map_flatMap, intercalate_flatMap nonempty, summary_batch,
      List.map_congr_left ih]

end Filled

/-- The batch of two lists does what the batch of the first one does, and then to its result what
the batch of the second one does. A change that nests batches does, says and touches what the one
batch of its single changes does, says and touches. -/
theorem batches_compose :
    (∀ (current : Option Cluster) (xs ys : List Change), xs ≠ [] →
      (batch (xs ++ ys)).apply current =
        (batch xs).apply current >>= fun c => (batch ys).apply (some c)) ∧
    ∀ change : Change, change.Filled →
      (∀ leaf ∈ change.leaves, leaf.Single) ∧
      (∀ current, (batch change.leaves).apply current = change.apply current) ∧
      (batch change.leaves).summary = change.summary ∧
      (batch change.leaves).isTopologyChange = change.isTopologyChange := by
  constructor
  · intro current xs ys nonempty
    exact apply_batch_append nonempty ys current
  · intro change filled
    exact ⟨single_of_mem_leaves change, filled.apply_leaves, filled.summary_leaves,
      isTopologyChange_leaves change⟩

def lone : Cluster := ⟨"c", [⟨"s", [⟨"n", "h", 1, ∅, ∅⟩]⟩], ∅⟩

def paired : List Change :=
  [.nodeAddition "s" ⟨"m", "h", 2, ∅, ∅⟩, .batch [.setting .unset .cluster "k" none]]

def lonePaired : Change := .batch [.batch [.activation lone], .batch paired]

/-- A cluster is founded and then gets a node, in nested batches and in one. The other way round the
first half does not apply, and its fault is that of the whole. -/
theorem lonePaired_composes :
    (batch ([.activation lone] ++ paired)).apply none = (batch paired).apply (some lone) ∧
    (batch (paired ++ [.activation lone])).apply none = .error .notActivated ∧
    (batch lonePaired.leaves).apply none = lonePaired.apply none ∧
    (batch lonePaired.leaves).summary = "Activating cluster 'c' (1 stripe(s), 1 node(s)), " ++
      "Attaching node h:2 (m) to stripe 's', unset k on cluster" ∧
    (batch lonePaired.leaves).isTopologyChange = true := by
  have filled : lonePaired.Filled := by
    refine .batch nofun (List.forall_mem_cons.2 ⟨?_, List.forall_mem_singleton.2 ?_⟩)
    · exact .batch nofun (List.forall_mem_singleton.2 (.single nofun))
    · refine .batch nofun (List.forall_mem_cons.2 ⟨.single nofun, List.forall_mem_singleton.2 ?_⟩)
      exact .batch nofun (List.forall_mem_singleton.2 (.single nofun))
  obtain ⟨-, applied, summary, touches⟩ := batches_compose.2 lonePaired filled
  refine ⟨batches_compose.1 none [.activation lone] paired nofun, ?_, applied none, ?_, ?_⟩
  · exact batches_compose.1 none paired [.activation lone] nofun
  · exact summary
  · exact touches

/-- An empty batch has no result where there is no topology. -/
example (c : Cluster) : (batch [.batch [], .activation c]).apply none = .error .emptyBatch := rfl

end Change
end Reconfig
