/-
Changes that leave the nodes alone.

A change that is no topology change consists of changes of settings, however its batches are nested
and whether some of them are empty. None of its steps touches more of the topology than settings, so
neither do all of them together. An empty batch has a result only where there is a topology, and
leaves that as it is.
-/
import Reconfig.Proofs.Topology.Batches
import Reconfig.Proofs.Topology.Shrinking

namespace Reconfig
namespace Change

variable {change : Change} {changes : List Change} {current : Option Cluster} {r : Cluster}

theorem map_bare_of_applyAll (each : ∀ change ∈ changes, ∀ current r,
      change.apply current = .ok r → current.map Cluster.bare = some r.bare)
    {next : Option Cluster} (applied : applyAll changes current = .ok next) :
    current.map Cluster.bare = next.map Cluster.bare := by
  induction changes generalizing current with
  | nil =>
    cases applied
    rfl
  | cons change rest ih =>
    obtain ⟨first, others⟩ := List.forall_mem_cons.1 each
    rw [applyAll] at applied
    obtain ⟨c, head, later⟩ := Outcome.bind_eq_ok.1 applied
    calc current.map Cluster.bare
      _ = some c.bare := first current c head
      _ = next.map Cluster.bare := ih others later

theorem map_bare_of_apply (plain : change.isTopologyChange = false)
    (applied : change.apply current = .ok r) : current.map Cluster.bare = some r.bare := by
  induction change using nested_induction generalizing current r with
  | single change single =>
    cases change with
    | setting op target name value =>
      obtain ⟨c, present, changed⟩ := Outcome.bind_eq_ok.1 applied
      cases current with
      | none => cases present
      | some c' =>
        cases present
        exact congrArg some (Cluster.bare_changeSetting changed).symm
    | batch changes => exact absurd rfl (single changes)
    | _ => cases plain
  | batch changes ih =>
    rw [isTopologyChange, anyTopologyChange_eq_any, List.any_eq_false] at plain
    rw [apply] at applied
    obtain ⟨next, all, result⟩ := Outcome.bind_eq_ok.1 applied
    cases next with
    | none => cases result
    | some c =>
      cases result
      refine map_bare_of_applyAll (fun change mem current r applied => ?_) all
      exact ih change mem (by simpa using plain change mem) applied

/-- A change that says that it is no topology change needs a topology, and keeps all of it but the
settings of the cluster and of its nodes. -/
theorem bare_of_not_isTopologyChange (plain : change.isTopologyChange = false)
    (applied : change.apply current = .ok r) : ∃ c, current = some c ∧ r.bare = c.bare := by
  obtain ⟨c, present, same⟩ := Option.map_eq_some_iff.1 (map_bare_of_apply plain applied)
  exact ⟨c, present, same.symm⟩

def retuned : Change :=
  .batch [.batch [], .setting .set .cluster "k" (some "v"),
    .batch [.setting .set (.node "h:1") "k" (some "w"), .batch []]]

/-- Batches within batches set something on the cluster and on its node, which stays where it is. -/
theorem retuned_keeps_bare : retuned.isTopologyChange = false ∧ ∃ r,
    retuned.apply (some lone) = .ok r ∧ r ≠ lone ∧ r.bare = lone.bare := by
  have applied : retuned.apply (some lone) = .ok
    { name := "c",
      stripes := [⟨"s", [⟨"n", "h", 1, ∅, Dict.empty.insert "k" "w"⟩]⟩],
      settings := Dict.empty.insert "k" "v" } := by rfl
  have plain : retuned.isTopologyChange = false := rfl
  obtain ⟨c, present, same⟩ := bare_of_not_isTopologyChange plain applied
  cases present
  exact ⟨plain, _, applied, by decide, same⟩

end Change
end Reconfig
