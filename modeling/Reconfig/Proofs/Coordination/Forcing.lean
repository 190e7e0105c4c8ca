/-
What a recovery does to the nodes that it has asked.

A recovery decides on the snapshots of one round of discovery, and what it then does it does to
the nodes that these snapshots show in the middle of a change. Each of them is forced once. The
nodes may have any histories: that a change is not closed in two ways follows from the decision
alone.
-/
import Reconfig.Proofs.Coordination.Outcomes

namespace Reconfig

/-- What one round of discovery over the nodes reports. -/
def Fleet.report (f : Fleet) (patience : Patience) (nodes : List Address) : Report :=
  .ofAnswers (f.discoverAll (some patience.discovery) nodes).2

namespace Report

/-- The nodes that answered. -/
def responding (r : Report) : List Address := r.responses.map (·.1)

/-- The nodes that answered in the middle of a change. -/
def prepared (r : Report) : List Address := (r.responses.filter (·.2.mode == .prepared)).map (·.1)

/-- What a recovery toward the target does about the report. -/
def decision (r : Report) (target : ChangeState) : Except Error RecoveryPlan :=
  if target = .prepared then
    .error (.invalidConfig "repair target must be COMMITTED or ROLLED_BACK")
  else r.recoveryPlan target

variable {r : Report} {target : ChangeState} {plan : RecoveryPlan} {uuid : Uuid} {H : Histories}
  {nodes : List Address}

theorem decision_eq_ok : r.decision target = .ok plan ↔
    target ≠ .prepared ∧ r.recoveryPlan target = .ok plan := by
  rw [decision]
  split
  · rename_i unrepairable
    simp [unrepairable]
  · rename_i terminal
    simp [terminal]

theorem decision_of_missing (verdict : r.state = .partiallyPrepared uuid)
    (missing : ∃ entry ∈ r.responses, entry.2.latestUuid ≠ some uuid) :
    ∃ why, r.decision .committed = .error (.inconsistent why) := by
  have listed : r.withoutLatest uuid ≠ [] := by
    obtain ⟨entry, mem, other⟩ := missing
    exact List.ne_nil_of_mem (List.mem_filter.2 ⟨mem, by simpa using other⟩)
  rw [decision, if_neg (by decide)]
  simp only [recoveryPlan, verdict, listed, ne_eq, not_false_eq_true, and_self, if_true]
  exact ⟨_, rfl⟩

theorem decision_of_present (verdict : r.state = .partiallyPrepared uuid)
    (present : ∀ entry ∈ r.responses, entry.2.latestUuid = some uuid) :
    r.decision .committed = .ok (.resolve uuid) := by
  have unlisted : r.withoutLatest uuid = [] := by
    rw [withoutLatest, List.filter_eq_nil_iff]
    intro entry mem
    simp [present entry mem]
  rw [decision, if_neg (by decide)]
  simp only [recoveryPlan, verdict, unlisted, ne_eq, not_true_eq_false, and_false, if_false]

theorem decision_of_partiallyCommitted (verdict : r.state = .partiallyCommitted uuid) :
    r.decision .committed = .ok (.resolve uuid) := by
  rw [decision, if_neg (by decide)]
  simp only [recoveryPlan, verdict, if_true]

theorem responding_sublist (answers : List (Address × Except CallError Snapshot)) :
    (ofAnswers answers).responding.Sublist (answers.map (·.1)) := by
  induction answers with
  | nil => exact .slnil
  | cons entry rest ih =>
    obtain ⟨node, answer⟩ := entry
    cases answer with
    | error e => exact ih.cons node
    | ok s => exact ih.cons_cons node

theorem mem_prepared {node : Address} :
    node ∈ r.prepared ↔ ∃ s, (node, s) ∈ r.responses ∧ s.mode = .prepared := by
  simp [prepared]

theorem prepared_ne_nil (named : r.state.changeUnderRepair = some uuid) : r.prepared ≠ [] := by
  intro none
  have one := preparedChanges_of_named named
  rw [prepared, List.map_eq_nil_iff] at none
  rw [Analysis.preparedChanges, none] at one
  cases one

theorem prepared_sublist (r : Report) : r.prepared.Sublist r.responding :=
  List.filter_sublist.map _

/-- The nodes that hold the change under repair are all that are in the middle of a change. -/
theorem holding_eq (shown : r.responses.Show nodes H)
    (named : r.state.changeUnderRepair = some uuid) : r.holding uuid =
      ChangePass.targets (fun node => (H node).messages) r.prepared := by
  have same : r.responses.filter (fun entry =>
      entry.2.mode == .prepared && entry.2.latestUuid == some uuid) =
        r.responses.filter (·.2.mode == .prepared) := by
    refine List.filter_congr fun entry mem => ?_
    by_cases inFlight : entry.2.mode = .prepared
    · have shows := shown.shows entry mem
      obtain ⟨d, below, shape, -⟩ := History.mode_eq_prepared_iff.1 (shows.mode.symm.trans inFlight)
      have latest : entry.2.latestUuid = some d.uuid := by rw [shows.latest, shape]; rfl
      simp [latest, latest_of_named named mem inFlight latest]
    · simp [inFlight]
  rw [holding, same, prepared, ChangePass.targets, List.map_map]
  refine List.map_congr_left fun entry mem => ?_
  rw [(shown.shows entry (List.mem_of_mem_filter mem)).count]
  rfl

/-- A node in the middle of a change holds the change under repair. -/
theorem open_of_prepared (shown : r.responses.Show nodes H)
    (named : r.state.changeUnderRepair = some uuid) {node : Address} (mem : node ∈ r.prepared) :
    ∃ d below, H node = d :: below ∧ d.uuid = uuid ∧ d.state = .prepared := by
  obtain ⟨s, found, inFlight⟩ := mem_prepared.1 mem
  have shows := shown.shows _ found
  obtain ⟨d, below, shape, open_⟩ :=
    History.mode_eq_prepared_iff.1 (shows.mode.symm.trans inFlight)
  have latest : s.latestUuid = some d.uuid := by rw [shows.latest, shape]; rfl
  exact ⟨d, below, shape, latest_of_named named found inFlight latest, open_⟩

/-- Nobody is in the middle of a change where there is nothing to repair. -/
theorem prepared_of_nothing (shown : r.responses.Show nodes H)
    (plan : r.recoveryPlan target = .ok .nothing) : r.prepared = [] := by
  obtain ⟨version, head, verdict⟩ := consistent_of_recoveryPlan plan
  have level := shown.level_of_analyze verdict
  rw [prepared, List.map_eq_nil_iff, List.filter_eq_nil_iff]
  intro entry mem
  rw [(shown.shows entry mem).mode, (level entry.1 (shown.node_mem mem)).1]
  decide

end Report

namespace Fleet

variable {f : Fleet} {patience : Patience} {nodes : List Address} {H : Histories}

theorem Splits.of_same {after : Fleet} {uuid : Uuid} {a b : Address}
    (splits : after.Splits uuid a b) (same : ∀ node, after.member? node = f.member? node) :
    f.Splits uuid a b := by
  obtain ⟨p, q, memberA, memberB, closed⟩ := splits
  exact ⟨p, q, (same a).symm.trans memberA, (same b).symm.trans memberB, closed⟩

theorem report_found {entry : Address × Snapshot}
    (mem : entry ∈ (f.report patience nodes).responses) :
    entry.1 ∈ nodes ∧ ∃ p, f.member? entry.1 = some p ∧ p.discover = .ok entry.2 := by
  have answer := Report.mem_responses.1 mem
  refine ⟨?_, shown_of_discoverAll answer⟩
  rw [← (f.discoverAll_serves (some patience.discovery) nodes).1]
  exact List.mem_map_of_mem answer

theorem report_shows (patience : Patience) (stand : f.Stand nodes H) :
    (f.report patience nodes).responses.Show (f.report patience nodes).responding H where
  nodes := rfl
  shows entry mem := by
    obtain ⟨called, p, member, found⟩ := report_found mem
    exact (stand entry.1 called p member).shows found

/-- Only the nodes themselves decide what becomes of them. -/
theorem Told.of_same {g last : Fleet} {message : Address → Message} {clock : Clock}
    {answered : Address → Bool} (told : g.Told message clock nodes answered last)
    (same : ∀ node, g.member? node = f.member? node) :
    f.Told message clock nodes answered last where
  received node mem p member := told.received node mem p ((same node).trans member)
  kept node outside := (told.kept node outside).trans (same node)

theorem responding_nodup (f : Fleet) (patience : Patience) (distinct : nodes.Nodup) :
    (f.report patience nodes).responding.Nodup := by
  have sublist := Report.responding_sublist (f.discoverAll (some patience.discovery) nodes).2
  rw [(f.discoverAll_serves (some patience.discovery) nodes).1] at sublist
  exact distinct.sublist sublist

end Fleet

namespace RecoveryPass

open ChangePass (targets callsOf callsOf_map)

/-- The message that forces the change on a node, which has accepted so many messages. -/
def forceFor (sender : Sender) (uuid : Uuid) (target : ChangeState) (count : Address → Nat)
    (node : Address) : Message :=
  .force ⟨sender.context (count node), uuid, target⟩

/-- The nodes that say that they were forced. -/
def taken (answers : List (Address × Except CallError Unit)) : List Address :=
  (answers.filter (·.2.isOk)).map (·.1)

/-- The other nodes, with the phase of the calls. -/
def missed (answers : List (Address × Except CallError Unit)) : List (Address × Phase) :=
  (answers.filter fun entry => !entry.2.isOk).map fun entry => (entry.1, .force)

def named (failures : Failures) : List (Address × Phase) :=
  failures.list.map fun failure => (failure.address, failure.phase)

theorem taken_map (answer : Address → Except CallError Unit) (nodes : List Address) :
    taken (nodes.map fun node => (node, answer node)) =
      nodes.filter fun node => (answer node).isOk := by
  rw [taken, List.filter_map, List.map_map]
  exact List.map_id _

theorem missed_map (answer : Address → Except CallError Unit) (nodes : List Address) :
    missed (nodes.map fun node => (node, answer node)) =
      (nodes.filter fun node => !(answer node).isOk).map (·, .force) := by
  rw [missed, List.filter_map, List.map_map]
  rfl

variable (sender : Sender) (uuid : Uuid) (target : ChangeState) (count : Address → Nat)
  (patience : Patience) (clock : Clock)

/-- Each node gets its message, whatever the others answer, and the pass reports who was forced
and who was not. -/
theorem forceAll_run (f : Fleet) (forced : List Address) (failures : Failures)
    (nodes : List Address) : ∃ last,
    (forceAll sender uuid target forced failures (targets count nodes)).run patience clock f =
      ((f.sendAll (forceFor sender uuid target count) (some patience.call) clock nodes).1,
        (forced ++ taken (f.sendAll (forceFor sender uuid target count) (some patience.call) clock
          nodes).2, last)) ∧
    named last = named failures ++
      missed (f.sendAll (forceFor sender uuid target count) (some patience.call) clock nodes).2 ∧
    (forceAll sender uuid target forced failures (targets count nodes)).transcript patience clock
        f =
      callsOf .force
        (f.sendAll (forceFor sender uuid target count) (some patience.call) clock nodes).2 := by
  induction nodes generalizing f forced failures with
  | nil =>
    refine ⟨failures, ?_, (List.append_nil _).symm, rfl⟩
    show (f, forced, failures) = (f, forced ++ [], failures)
    rw [List.append_nil]
  | cons node rest ih =>
    obtain ⟨next, unfolded, accepted, refused⟩ : ∃ next : Except CallError Unit → Pass _,
        forceAll sender uuid target forced failures (targets count (node :: rest)) =
          .send node (forceFor sender uuid target count node) next ∧
        next (.ok ()) =
          forceAll sender uuid target (forced ++ [node]) failures (targets count rest) ∧
        ∀ e, next (.error e) =
          forceAll sender uuid target forced (failures.record node .force e)
            (targets count rest) := ⟨_, rfl, rfl, fun _ => rfl⟩
    cases sent : f.send node (forceFor sender uuid target count node) (some patience.call)
        (clock f.calls.length) with
    | mk g answer =>
    cases answer with
    | ok =>
      obtain ⟨last, run, reported, transcript⟩ := ih g (forced ++ [node]) failures
      simp only [unfolded, Pass.run, Pass.transcript, Fleet.sendAll, sent, accepted]
      refine ⟨last, ?_, reported, congrArg _ transcript⟩
      rw [run, List.append_assoc]
      rfl
    | error e =>
      obtain ⟨last, run, reported, transcript⟩ := ih g forced (failures.record node .force e)
      simp only [unfolded, Pass.run, Pass.transcript, Fleet.sendAll, sent, refused]
      refine ⟨last, run, ?_, congrArg _ transcript⟩
      rw [reported, named, Failures.record, List.map_append, List.append_assoc]
      rfl

theorem all_answered {failures : Failures} {listed : List Address} {answered : Address → Bool}
    (reported : named failures = (listed.filter fun node => !answered node).map (·, .force))
    (succeeded : failures.toResult = .ok ()) : ∀ node ∈ listed, answered node = true := by
  have none : failures.list = [] := by
    unfold Failures.toResult at succeeded
    split at succeeded
    · rename_i empty
      exact List.isEmpty_iff.1 empty
    · cases succeeded
  rw [named, none, List.map_nil, eq_comm, List.map_eq_nil_iff, List.filter_eq_nil_iff] at reported
  intro node mem
  simpa using reported node mem

/-- How a recovery ends: it declines, it finds nothing to repair, or it forces the change on each
node that holds it, which may fail on some of them. -/
inductive RunsTo (f : Fleet) (sender : Sender) (target : ChangeState) (clock : Clock)
    (r : Report) (H : Histories) : Fleet → Except Error RecoveryOutcome → List Call → Prop
  | declined {after : Fleet} {e : Error} {calls : List Call}
      (decision : r.decision target = .error e)
      (same : ∀ node, after.member? node = f.member? node)
      (asked : ∀ call ∈ calls, call.phase = .discover) :
      RunsTo f sender target clock r H after (.error e) calls
  | idle {after : Fleet} {calls : List Call}
      (decision : r.decision target = .ok .nothing)
      (same : ∀ node, after.member? node = f.member? node)
      (asked : ∀ call ∈ calls, call.phase = .discover) :
      RunsTo f sender target clock r H after (.ok ⟨none, target, [], r.unreachable.map (·.1)⟩) calls
  | resolved {uuid : Uuid} {after : Fleet} {answered : Address → Bool} {asks : List Call}
      {failures : Failures} (decision : r.decision target = .ok (.resolve uuid))
      (asked : ∀ call ∈ asks, call.phase = .discover)
      (told : f.Told (forceFor sender uuid target fun node => (H node).messages) clock r.prepared
        answered after)
      (reported : named failures = (r.prepared.filter fun node => !answered node).map (·, .force)) :
      RunsTo f sender target clock r H after
        (failures.toResult.map fun () =>
          ⟨some uuid, target, r.prepared.filter answered, r.unreachable.map (·.1)⟩)
        (asks ++ r.prepared.map fun node => ⟨node, .force, answered node⟩)

end RecoveryPass

theorem recoveryPass_run (sender : Sender) (target : ChangeState) (patience : Patience)
    (clock : Clock) (f : Fleet) {nodes : List Address} {H : Histories} (distinct : nodes.Nodup)
    (stand : f.Stand nodes H) :
    RecoveryPass.RunsTo f sender target clock (f.report patience nodes) H
      ((recoveryPass sender nodes target).run patience clock f).1
      ((recoveryPass sender nodes target).run patience clock f).2
      ((recoveryPass sender nodes target).transcript patience clock f) := by
  unfold recoveryPass
  split
  · rename_i unrepairable
    rw [Pass.run_pure, Pass.transcript_pure]
    exact .declined (if_pos unrepairable) (fun _ => rfl) nofun
  · rename_i terminal
    have decision : ∀ {plan}, (f.report patience nodes).recoveryPlan target = plan →
        (f.report patience nodes).decision target = plan := fun plan => plan ▸ if_neg terminal
    have shown := Fleet.report_shows patience stand
    have once := (f.responding_nodup patience distinct).sublist
      (f.report patience nodes).prepared_sublist
    have same := f.member?_discoverAll (some patience.discovery) nodes
    have asked : ∀ call ∈ (f.discoverAll (some patience.discovery) nodes).2.map (fun entry =>
        (⟨entry.1, .discover, entry.2.isOk⟩ : Call)), call.phase = .discover := by
      intro call mem
      obtain ⟨entry, -, rfl⟩ := List.mem_map.1 mem
      rfl
    rw [Pass.run_bind, Pass.transcript_bind]
    simp only [Pass.check, Pass.run, Pass.transcript, List.append_nil]
    rw [← Fleet.report]
    generalize (f.discoverAll (some patience.discovery) nodes).1 = g at same ⊢
    generalize (f.discoverAll (some patience.discovery) nodes).2.map (fun entry =>
      (⟨entry.1, .discover, entry.2.isOk⟩ : Call)) = asks at asked ⊢
    generalize f.report patience nodes = r at decision shown once ⊢
    cases plan : r.recoveryPlan target with
    | error e =>
      simp only [Pass.run_pure, Pass.transcript_pure, List.append_nil]
      exact .declined (decision plan) same asked
    | ok decided =>
      cases decided with
      | nothing =>
        simp only [Pass.run_pure, Pass.transcript_pure, List.append_nil]
        exact .idle (decision plan) same asked
      | resolve uuid =>
        have holding := Report.holding_eq shown (Report.named_of_recoveryPlan plan)
        obtain ⟨last, run, reported, transcript⟩ := RecoveryPass.forceAll_run sender uuid target
          (fun node => (H node).messages) patience clock g [] .none r.prepared
        obtain ⟨answer, answers, told⟩ := g.told_sendAll (RecoveryPass.forceFor sender uuid target
          fun node => (H node).messages) (some patience.call) clock once
        rw [answers] at run reported transcript
        rw [RecoveryPass.taken_map] at run
        rw [RecoveryPass.missed_map] at reported
        rw [ChangePass.callsOf_map] at transcript
        simp only [holding, Pass.run_bind, Pass.transcript_bind, Pass.run_pure,
          Pass.transcript_pure, run, transcript, List.append_nil]
        exact .resolved (decision plan) asked (told.of_same same) reported

namespace RecoveryPass
namespace RunsTo

variable {f after : Fleet} {sender : Sender} {target : ChangeState} {clock : Clock} {r : Report}
  {H : Histories} {result : Except Error RecoveryOutcome} {calls : List Call}

/-- A recovery that declines calls nobody but to ask. -/
theorem of_declined (runs : RunsTo f sender target clock r H after result calls) {e : Error}
    (decision : r.decision target = .error e) : result = .error e ∧
      (∀ call ∈ calls, call.phase = .discover) ∧ ∀ node, after.member? node = f.member? node := by
  cases runs with
  | declined other same asked =>
    cases decision.symm.trans other
    exact ⟨rfl, asked, same⟩
  | idle other => cases decision.symm.trans other
  | resolved other => cases decision.symm.trans other

/-- A recovery that decides to resolve a change forces it on each node that holds it. -/
theorem of_resolved (runs : RunsTo f sender target clock r H after result calls) {uuid : Uuid}
    (decision : r.decision target = .ok (.resolve uuid)) : ∃ asked answered,
      calls = asked ++ r.prepared.map (fun node => ⟨node, .force, answered node⟩) ∧
      (∀ call ∈ asked, call.phase = .discover) ∧
      f.Told (forceFor sender uuid target fun node => (H node).messages) clock r.prepared answered
        after ∧
      (∀ outcome, result = .ok outcome → ∀ node ∈ r.prepared, answered node = true) := by
  cases runs with
  | declined other => cases decision.symm.trans other
  | idle other => cases decision.symm.trans other
  | @resolved _ _ answered asks _ other asked told reported =>
    cases decision.symm.trans other
    refine ⟨asks, answered, rfl, asked, told, fun outcome succeeded => ?_⟩
    obtain ⟨⟨⟩, closed, -⟩ := Outcome.map_eq_ok.1 succeeded
    exact all_answered reported closed

end RunsTo
end RecoveryPass

/-! ## What is left of the nodes -/

namespace RecoveryPass

/-- What a recovery toward the target has made of nodes that gave it this report. It has forced
these nodes, and those that are marked have said that they closed the change. -/
structure Recovers (f : Fleet) (r : Report) (target : ChangeState) (forced : List Address)
    (answered : Address → Bool) (after : Fleet) (result : Except Error RecoveryOutcome) : Prop where
  once : forced.Nodup
  declined : ∀ e, r.decision target = .error e → forced = [] ∧ result = .error e
  decided : ∀ plan, r.decision target = .ok plan → forced = r.prepared
  uncalled : ∀ node, node ∉ forced → after.member? node = f.member? node
  refused : ∀ node ∈ forced, answered node = false → ∃ p q, f.member? node = some p ∧
    after.member? node = some q ∧ p.Unchanged q
  resolved : ∀ node ∈ forced, answered node = true → ∃ uuid p q,
    r.decision target = .ok (.resolve uuid) ∧ f.member? node = some p ∧
    after.member? node = some q ∧ p.Resolved q uuid target
  agreed : ∀ a ∈ r.responding, ∀ b ∈ r.responding, ∀ uuid,
    after.Splits uuid a b → f.Splits uuid a b
  repaired : ∀ outcome, result = .ok outcome → outcome.forced = r.prepared ∧
    ∀ node ∈ r.responding, ∃ q, after.member? node = some q ∧ q.AtRest

section Effects

variable {f after : Fleet} {sender : Sender} {uuid : Uuid} {target : ChangeState}
  {patience : Patience} {clock : Clock} {nodes : List Address} {H : Histories}
  {answered : Address → Bool} {node : Address} (stand : f.Stand nodes H)
include stand

/-- A node that answered is one of the fleet, with a history that is not too long. -/
theorem found_of_responding (mem : node ∈ (f.report patience nodes).responding) :
    ∃ p s, f.member? node = some p ∧ p.discover = .ok s ∧
      (node, s) ∈ (f.report patience nodes).responses ∧ p.Stands (H node) ∧
      (H node).length ≤ chainLimit := by
  obtain ⟨⟨_, s⟩, found, rfl⟩ := List.mem_map.1 mem
  obtain ⟨called, p, member, shown⟩ := Fleet.report_found found
  have stands := stand _ called p member
  exact ⟨p, s, member, shown, found, stands, stands.shown_iff.1 ⟨s, shown⟩⟩

theorem atRest_of_responding (mem : node ∈ (f.report patience nodes).responding)
    (apart : node ∉ (f.report patience nodes).prepared) :
    ∃ p, f.member? node = some p ∧ p.AtRest := by
  obtain ⟨p, s, member, shown, listed, stands, short⟩ := found_of_responding stand mem
  have idle : (H node).mode = .accepting := by
    rcases mode : (H node).mode with _ | _
    · rfl
    · exact absurd (Report.mem_prepared.2 ⟨s, listed, (stands.shows shown).mode.trans mode⟩) apart
  exact ⟨p, member, stands.atRest idle short⟩

variable (decision : (f.report patience nodes).decision target = .ok (.resolve uuid))
  (told : f.Told (forceFor sender uuid target fun node => (H node).messages) clock
    (f.report patience nodes).prepared answered after) (storable : ∀ n, (clock n).Storable)
include decision told storable

/-- What becomes of a node that is forced. -/
theorem closed_of_told (mem : node ∈ (f.report patience nodes).prepared) :
    ∃ p q d below, f.member? node = some p ∧ after.member? node = some q ∧ H node = d :: below ∧
      (answered node = false → p.Unchanged q) ∧
      (answered node = true → p.Resolved q uuid target ∧
        q.Stands (d.inState target :: below)) := by
  obtain ⟨terminal, plan⟩ := Report.decision_eq_ok.1 decision
  have shown := Fleet.report_shows patience stand
  obtain ⟨d, below, shape, rfl, inFlight⟩ :=
    Report.open_of_prepared shown (Report.named_of_recoveryPlan plan) mem
  obtain ⟨p, -, member, -, -, stands, -⟩ :=
    found_of_responding stand ((f.report patience nodes).prepared_sublist.subset mem)
  rw [shape] at stands
  obtain ⟨q, n, found, received⟩ := told.received node mem p member
  refine ⟨p, q, d, below, member, found, shape, fun lost => ?_, fun done => ?_⟩
  · rw [lost] at received
    exact received.unchanged stands inFlight rfl terminal (storable n)
  · rw [done] at received
    have after := (received.close stands inFlight rfl terminal (storable n)).1
    exact ⟨stands.resolved after inFlight, after⟩

/-- A node only records what it did before, or the change under repair in its target state. -/
theorem recorded_before {q : Participant} (member : after.member? node = some q)
    {other : Uuid} {state : ChangeState} (stored : q.space.stateOf? other = some state) :
    (∃ p, f.member? node = some p ∧ p.space.stateOf? other = some state) ∨
      other = uuid ∧ state = target := by
  by_cases called : node ∈ (f.report patience nodes).prepared
  · obtain ⟨p, r, d, below, before, found, shape, unchanged, resolved⟩ :=
      closed_of_told stand decision told storable called
    cases found.symm.trans member
    cases answer : answered node with
    | false =>
      have space : q.space = p.space := congrArg Store.space (unchanged answer).store
      rw [space] at stored
      exact .inl ⟨p, before, stored⟩
    | true =>
      obtain ⟨resolved, -⟩ := resolved answer
      by_cases is : other = uuid
      · rw [is, resolved.after] at stored
        exact .inr ⟨is, (Option.some.inj stored).symm⟩
      · exact .inl ⟨p, before, (resolved.others other is state).1 stored⟩
  · rw [told.kept node called] at member
    exact .inl ⟨q, member, stored⟩

/-- Two nodes that answered and have now closed a change in different ways had done so before. -/
theorem splits_before {a b : Address} {other : Uuid}
    (respondingA : a ∈ (f.report patience nodes).responding)
    (respondingB : b ∈ (f.report patience nodes).responding) (splits : after.Splits other a b) :
    f.Splits other a b := by
  obtain ⟨p, q, memberA, memberB, committed, rolledBack⟩ := splits
  obtain ⟨-, plan⟩ := Report.decision_eq_ok.1 decision
  obtain ⟨noneCommitted, committing⟩ := Report.of_recoveryPlan plan
  -- What a node that answered stores of the change, the decision has seen.
  have seen : ∀ {node state}, node ∈ (f.report patience nodes).responding →
      Analysis.recordedAs (f.report patience nodes).responses uuid state = false →
      ∀ p, f.member? node = some p → p.space.stateOf? uuid ≠ some state := by
    intro node state responding none p member stored
    obtain ⟨r, s, member', shown, found, stands, -⟩ := found_of_responding stand responding
    cases member'.symm.trans member
    exact Analysis.recordedAs_eq_false.1 none _ found ((stands.shown_stateOf? shown).2 stored)
  rcases recorded_before stand decision told storable memberA committed with
    ⟨p₀, beforeA, storedA⟩ | ⟨rfl, rfl⟩
  · rcases recorded_before stand decision told storable memberB rolledBack with
      ⟨q₀, beforeB, storedB⟩ | ⟨rfl, rfl⟩
    · exact ⟨p₀, q₀, beforeA, beforeB, storedA, storedB⟩
    · exact absurd storedA (seen respondingA (noneCommitted rfl) p₀ beforeA)
  · rcases recorded_before stand decision told storable memberB rolledBack with
      ⟨q₀, beforeB, storedB⟩ | ⟨-, other⟩
    · exact absurd storedB (seen respondingB (committing rfl).1 q₀ beforeB)
    · cases other

/-- If every forced node has closed the change, no node that answered is in the middle of one. -/
theorem atRest_of_told (all : ∀ node ∈ (f.report patience nodes).prepared, answered node = true)
    (mem : node ∈ (f.report patience nodes).responding) :
    ∃ q, after.member? node = some q ∧ q.AtRest := by
  by_cases called : node ∈ (f.report patience nodes).prepared
  · obtain ⟨terminal, -⟩ := Report.decision_eq_ok.1 decision
    obtain ⟨-, -, -, -, -, -, short⟩ := found_of_responding stand mem
    obtain ⟨_, q, d, below, -, found, shape, -, resolved⟩ :=
      closed_of_told stand decision told storable called
    obtain ⟨-, stands⟩ := resolved (all node called)
    rw [shape] at short
    exact ⟨q, found, stands.atRest (if_neg terminal) short⟩
  · obtain ⟨p, member, rest⟩ := atRest_of_responding stand mem called
    exact ⟨p, (told.kept node called).trans member, rest⟩

end Effects

end RecoveryPass

end Reconfig
