/-
A repair brings an interrupted change to an end.

On nodes that answer, one round of discovery shows the histories of all nodes, and
each force message closes the request that it names. So a repair that follows the
verdict leaves no request open, and the nodes level.
-/
import Reconfig.Coordination.Operator
import Reconfig.Proofs.Coordination.Health
import Reconfig.Proofs.Coordination.Interruption

namespace Reconfig

theorem Pass.run_bind {α β : Type} (patience : Patience) (clock : Clock) (pass : Pass α)
    (next : α → Pass β) (f : Fleet) : (pass >>= next).run patience clock f =
      (next (pass.run patience clock f).2).run patience clock (pass.run patience clock f).1 := by
  induction pass generalizing f with
  | done a => rfl
  | discover nodes more ih => exact ih _ _
  | send node message more ih => exact ih _ _

namespace Fleet
namespace Healthy

variable {f : Fleet} {H : Histories} {nodes : List Address}

/-- Forcing the change on all nodes that hold it closes it on all of them. -/
theorem forceAll (healthy : f.Healthy H nodes) {uuid : Uuid} {counts : List (Address × Nat)}
    (distinct : (counts.map (·.1)).Nodup)
    (holds : ∀ target ∈ counts, target.1 ∈ nodes ∧ ∃ d below, H target.1 = d :: below ∧
      d.uuid = uuid ∧ d.state = .prepared ∧ target.2 = History.messages (d :: below))
    {state : ChangeState} (terminal : state ≠ .prepared) (sender : Sender)
    (forced : List Address) (failures : Failures) (patience : Patience) {clock : Clock}
    (readable : ∀ n, (clock n).Legible) : ∃ H',
      ((RecoveryPass.forceAll sender uuid state forced failures counts).run patience clock f).2 =
        (forced ++ counts.map (·.1), failures) ∧
      ((RecoveryPass.forceAll sender uuid state forced failures counts).run patience
        clock f).1.Healthy H' nodes ∧
      (∀ node, node ∉ counts.map (·.1) → H' node = H node) ∧
      ∀ node ∈ counts.map (·.1), ∃ d below, H node = d :: below ∧
        H' node = d.inState state :: below := by
  induction counts generalizing f H forced with
  | nil => exact ⟨H, by simp [RecoveryPass.forceAll]; rfl, healthy, fun _ _ => rfl, by simp⟩
  | cons target rest ih =>
    have ⟨absent, distinct⟩ := List.nodup_cons.1 distinct
    obtain ⟨mem, d, below, shape, same, inFlight, fence⟩ := holds target List.mem_cons_self
    have closing : (Message.force ⟨sender.context target.2, uuid, state⟩).closing? =
        some (sender.context target.2, d.uuid, state) := by
      rw [Message.closing?, if_neg terminal, same]
    obtain ⟨accepted, healthy⟩ := healthy.close mem shape inFlight closing fence.symm
      (some patience.call) (readable f.calls.length)
    have others : ∀ other ∈ rest, Function.update H target.1 (d.inState state :: below) other.1 =
        H other.1 := fun other mem => by
      refine Function.update_of_ne (fun here => absent ?_) _ _
      show target.1 ∈ _
      rw [← here]
      exact List.mem_map_of_mem mem
    obtain ⟨H', outcome, healthy, kept, closed⟩ := ih healthy distinct
      (fun other mem => by
        rw [others other mem]
        exact holds other (List.mem_cons_of_mem _ mem)) (forced ++ [target.1])
    have step : (RecoveryPass.forceAll sender uuid state forced failures
        (target :: rest)).run patience clock f =
        (RecoveryPass.forceAll sender uuid state (forced ++ [target.1]) failures rest).run
          patience clock (f.send target.1 (.force ⟨sender.context target.2, uuid, state⟩)
            (some patience.call) (clock f.calls.length)).1 := by
      rw [RecoveryPass.forceAll, Pass.run_bind]
      simp only [Pass.call, Pass.run, accepted]
    rw [step]
    refine ⟨H', by rw [outcome]; simp, healthy, fun node mem => ?_, fun node mem => ?_⟩
    · rw [List.map_cons, List.mem_cons, not_or] at mem
      rw [kept node mem.2, Function.update_of_ne mem.1]
    · rcases List.mem_cons.1 mem with rfl | mem
      · refine ⟨d, below, shape, ?_⟩
        rw [kept _ absent, Function.update_self]
      · obtain ⟨e, low, shape', after⟩ := closed node mem
        obtain ⟨other, found, rfl⟩ := List.mem_map.1 mem
        rw [others other found] at shape'
        exact ⟨e, low, shape', after⟩

end Healthy
end Fleet

/-! ## Recoveries and repairs -/

namespace Pending

variable {nodes : List Address} {uuid : Uuid} {H₀ H H' : Histories} {target : ChangeState}
  {version : Nat} {head : Option Uuid}

theorem open_eq (pending : Pending nodes uuid H₀ H target) (before : H₀.Level nodes version head)
    {node : Address} (called : node ∈ nodes) {d : ChangeDetails} {below : History}
    (shape : H node = d :: below) (inFlight : d.state = .prepared) :
    d.uuid = uuid ∧ below = H₀ node := by
  rcases pending.each node called with ⟨start, -⟩ | ⟨e, shape', same, -⟩
  · have idle := (before node called).1
    rw [← start, History.mode_eq_prepared_iff.2 ⟨d, below, shape, inFlight⟩] at idle
    cases idle
  · cases shape.symm.trans shape'
    exact ⟨same, rfl⟩

theorem closed (pending : Pending nodes uuid H₀ H target) (before : H₀.Level nodes version head)
    {holding : List Address} (kept : ∀ node, node ∉ holding → H' node = H node)
    (held : ∀ node ∈ nodes, ∀ d below, H node = d :: below → d.state = .prepared →
      node ∈ holding)
    (closed : ∀ node ∈ holding, node ∈ nodes ∧ ∃ d below, H node = d :: below ∧
      d.state = .prepared ∧ H' node = d.inState target :: below) :
    Pending nodes uuid H₀ H' target ∧ ∀ node ∈ nodes, (H' node).mode ≠ .prepared := by
  have terminal : target ≠ .prepared := by
    rcases pending.terminal with rfl | rfl <;> decide
  have forced : ∀ node ∈ holding, ∃ d, d.uuid = uuid ∧ d.state = target ∧
      H' node = d :: H₀ node := by
    intro node mem
    obtain ⟨called, d, below, shape, inFlight, after⟩ := closed node mem
    obtain ⟨same, rfl⟩ := pending.open_eq before called shape inFlight
    exact ⟨d.inState target, same, rfl, after⟩
  refine ⟨⟨pending.terminal, pending.fresh, fun node called => ?_, fun commit => ?_⟩,
    fun node called => ?_⟩
  · by_cases mem : node ∈ holding
    · obtain ⟨d, same, state, after⟩ := forced node mem
      exact .inr ⟨d, after, same, .inr state⟩
    · rw [kept node mem]
      exact pending.each node called
  · obtain ⟨node, called, d, recorded, same, committed⟩ := pending.seen commit
    refine ⟨node, called, ?_⟩
    by_cases mem : node ∈ holding
    · obtain ⟨e, same, state, after⟩ := forced node mem
      refine ⟨e, ?_, same, state.trans commit⟩
      rw [after]
      exact List.mem_cons_self
    · rw [kept node mem]
      exact ⟨d, recorded, same, committed⟩
  · by_cases mem : node ∈ holding
    · obtain ⟨d, -, state, after⟩ := forced node mem
      rw [after, History.mode, state, if_neg terminal]
      decide
    · rw [kept node mem]
      intro prepared
      obtain ⟨d, below, shape, inFlight⟩ := History.mode_eq_prepared_iff.1 prepared
      exact mem (held node called d below shape inFlight)

end Pending

namespace Fleet
namespace Healthy

variable {f : Fleet} {H₀ H : Histories} {nodes : List Address} {uuid : Uuid}
  {target : ChangeState} {version : Nat} {head : Option Uuid}

/-- A recovery of a change that is open somewhere closes it everywhere. -/
theorem recover (healthy : f.Healthy H nodes) (pending : Pending nodes uuid H₀ H target)
    (before : H₀.Level nodes version head) (distinct : nodes.Nodup) {node : Address}
    (called : node ∈ nodes) (prepared : (H node).mode = .prepared) (sender : Sender)
    (patience : Patience) {clock : Clock} (readable : ∀ n, (clock n).Legible) : ∃ outcome H',
      ((recoveryPass sender nodes target).run patience clock f).2 = .ok outcome ∧
      ((recoveryPass sender nodes target).run patience clock f).1.Healthy H' nodes ∧
      Pending nodes uuid H₀ H' target ∧ ∀ node ∈ nodes, (H' node).mode ≠ .prepared := by
  have terminal : target ≠ .prepared := by
    rcases pending.terminal with rfl | rfl <;> decide
  obtain ⟨snapshots, shown, report, checked⟩ := healthy.check patience clock
  obtain ⟨-, plan⟩ := pending.verdict before shown called prepared
  let counts := (Report.mk snapshots []).holding uuid
  have holds : ∀ target ∈ counts, _ := fun target held => shown.mem_holding held
  obtain ⟨H', outcome, healthy', kept, closed⟩ := checked.forceAll
    (shown.holding_nodup distinct uuid []) holds terminal sender [] .none patience readable
  have run : (recoveryPass sender nodes target).run patience clock f =
      (((RecoveryPass.forceAll sender uuid target [] .none counts).run patience clock
        ((Pass.check nodes).run patience clock f).1).1,
        .ok ⟨some uuid, target, counts.map (·.1), []⟩) := by
    rw [recoveryPass, if_neg terminal, Pass.run_bind, report]
    simp only [plan, Pass.run_bind, outcome]
    rfl
  rw [run]
  obtain ⟨pending, settled⟩ := pending.closed before kept
    (fun node called d below shape inFlight => by
      rw [← (pending.open_eq before called shape inFlight).1]
      exact shown.mem_holding_of_prepared called shape inFlight)
    (fun node mem => by
      obtain ⟨d, below, shape, after⟩ := closed node mem
      obtain ⟨entry, held, rfl⟩ := List.mem_map.1 mem
      obtain ⟨called, e, low, shape', -, inFlight, -⟩ := shown.mem_holding held
      cases shape.symm.trans shape'
      exact ⟨called, d, below, shape, inFlight, after⟩)
  exact ⟨_, H', rfl, healthy', pending, settled⟩

theorem recover_level (healthy : f.Healthy H nodes) (level : H.Level nodes version head)
    (nonempty : nodes ≠ []) (terminal : target ≠ .prepared) (sender : Sender)
    (patience : Patience) (clock : Clock) : ∃ outcome,
      ((recoveryPass sender nodes target).run patience clock f).2 = .ok outcome ∧
      ((recoveryPass sender nodes target).run patience clock f).1.Healthy H nodes := by
  obtain ⟨snapshots, shown, report, checked⟩ := healthy.check patience clock
  have verdict := shown.analyze_of_level nonempty level
  have plan : (Report.mk snapshots []).recoveryPlan target = .ok .nothing := by
    rw [Report.recoveryPlan, show (Report.mk snapshots []).state = _ from verdict]
  have run : (recoveryPass sender nodes target).run patience clock f =
      (((Pass.check nodes).run patience clock f).1, .ok ⟨none, target, [], []⟩) := by
    rw [recoveryPass, if_neg terminal, Pass.run_bind, report]
    simp only [plan]
    rfl
  rw [run]
  exact ⟨_, rfl, checked⟩

/-- A repair that finds its own way brings what is left of a change to an end. -/
theorem repair (healthy : f.Healthy H nodes) (pending : Pending nodes uuid H₀ H target)
    (before : H₀.Level nodes version head) (distinct : nodes.Nodup) (nonempty : nodes ≠ [])
    (sender : Sender) (patience : Patience) {clock : Clock} (readable : ∀ n, (clock n).Legible) :
    ∃ outcome H', ((repairPass sender nodes none).run patience clock f).2 = .ok outcome ∧
      ((repairPass sender nodes none).run patience clock f).1.Healthy H' nodes ∧
      Pending nodes uuid H₀ H' target ∧ ∀ node ∈ nodes, (H' node).mode ≠ .prepared := by
  obtain ⟨snapshots, shown, report, checked⟩ := healthy.check patience clock
  have state : (Report.mk snapshots []).state = analyze snapshots := rfl
  by_cases busy : ∃ node ∈ nodes, (H node).mode = .prepared
  · obtain ⟨node, called, prepared⟩ := busy
    have suggested := (pending.verdict before shown called prepared).1
    have chosen : (Report.mk snapshots []).state.repairTarget = .ok target := by
      rw [ClusterState.repairTarget, state, suggested]
    have run : (repairPass sender nodes none).run patience clock f =
        (recoveryPass sender nodes target).run patience clock
          ((Pass.check nodes).run patience clock f).1 := by
      simp only [repairPass, Pass.run_bind, report, chosen]
    rw [run]
    exact checked.recover pending before distinct called prepared sender patience readable
  · have settled : ∀ node ∈ nodes, (H node).mode ≠ .prepared :=
      fun node called prepared => busy ⟨node, called, prepared⟩
    have level := pending.level before settled
    have verdict := shown.analyze_of_level nonempty level
    have chosen : (Report.mk snapshots []).state.repairTarget = .ok .committed := by
      rw [ClusterState.repairTarget, state, verdict]
      rfl
    have run : (repairPass sender nodes none).run patience clock f =
        (recoveryPass sender nodes .committed).run patience clock
          ((Pass.check nodes).run patience clock f).1 := by
      simp only [repairPass, Pass.run_bind, report, chosen]
    rw [run]
    obtain ⟨outcome, ended, healthy⟩ := checked.recover_level level nonempty
      (show ChangeState.committed ≠ .prepared by decide) sender patience clock
    exact ⟨outcome, H, ended, healthy, pending, settled⟩

end Healthy
end Fleet
end Reconfig
