/-
A change pass over healthy nodes succeeds.

Nodes that answer, are level and accept the prepare message are all prepared, and each of them
then commits, since nobody else has talked to it in between.
-/
import Reconfig.Proofs.Coordination.Aftermath

namespace Reconfig
namespace Fleet.Healthy

variable {f : Fleet} {H : Histories} {nodes called : List Address} {uuid : Uuid}
  {clock : Clock}

/-- Several nodes prepare a change that each of them accepts. -/
theorem sendAll_prepare (healthy : f.Healthy H nodes) (message : Address → Prepare)
    (limit : Option Span) (distinct : called.Nodup) (uuids : ∀ node, (message node).uuid = uuid)
    (accepts : ∀ node ∈ called, ∀ p, f.member? node = some p → ∀ n,
      (p.handle (.prepare (message node)) (clock n)).2 = .ok ())
    (known : ∀ node ∈ called, node ∈ nodes) (room : ∀ node ∈ called, (H node).length < chainLimit)
    (agree : ∀ node ∈ called, ∀ p, f.member? node = some p →
      ∀ l ∈ p.processor.listeners, l.Agrees)
    (readable : ∀ n, (clock n).Legible) : ∃ H' : Histories,
      (f.sendAll (fun node => .prepare (message node)) limit clock called).1.Healthy H' nodes ∧
      (∀ entry ∈ (f.sendAll (fun node => .prepare (message node)) limit clock called).2,
        entry.2 = .ok ()) ∧
      H.Carry H' called uuid (fun _ => .prepared) ∧ ∀ node, node ∉ called → H' node = H node := by
  induction called generalizing f H with
  | nil => exact ⟨H, healthy, List.forall_mem_nil _, nofun, fun _ _ => rfl⟩
  | cons node rest ih =>
    obtain ⟨absent, distinct⟩ := List.nodup_cons.1 distinct
    obtain ⟨p, member⟩ := healthy.member node (known node List.mem_cons_self)
    obtain ⟨d, same, inFlight, answer, healthy'⟩ := healthy.prepare member
      (accepts node List.mem_cons_self p member f.calls.length) (room node List.mem_cons_self)
      (agree node List.mem_cons_self p member) limit (readable f.calls.length)
    have apart : ∀ other ∈ rest, other ≠ node := fun other mem => ne_of_mem_of_not_mem mem absent
    have kept : ∀ other ∈ rest, (f.send node (.prepare (message node)) limit
        (clock f.calls.length)).1.member? other = f.member? other :=
      fun other mem => f.member?_send_of_ne _ _ _ (apart other mem)
    have still : ∀ other ∈ rest, Function.update H node (d :: H node) other = H other :=
      fun other mem => Function.update_of_ne (apart other mem) _ _
    obtain ⟨H', healthy'', answers, carry, others⟩ := ih healthy' distinct
      (fun other mem q found => by
        rw [kept other mem] at found
        exact accepts other (List.mem_cons_of_mem _ mem) q found)
      (fun other mem => known other (List.mem_cons_of_mem _ mem))
      (fun other mem => by
        rw [still other mem]
        exact room other (List.mem_cons_of_mem _ mem))
      (fun other mem q found => by
        rw [kept other mem] at found
        exact agree other (List.mem_cons_of_mem _ mem) q found)
    refine ⟨H', healthy'', List.forall_mem_cons.2 ⟨answer, answers⟩, ?_, fun other outside => ?_⟩
    · refine List.forall_mem_cons.2
        ⟨⟨d, ?_, same.trans (uuids node), inFlight⟩, fun other mem => ?_⟩
      · rw [others node absent, Function.update_self]
      · obtain ⟨e, shape, state⟩ := carry other mem
        rw [still other mem] at shape
        exact ⟨e, shape, state⟩
    · rw [List.mem_cons, not_or] at outside
      rw [others other outside.2, Function.update_of_ne outside.1]

/-- Several nodes close the request that they hold open. -/
theorem sendAll_close (healthy : f.Healthy H nodes) (message : Address → Message)
    (context : Address → Context) {target : ChangeState} (limit : Option Span)
    (distinct : called.Nodup) (known : ∀ node ∈ called, node ∈ nodes)
    (closing : ∀ node, (message node).closing? = some (context node, uuid, target))
    (holds : ∀ node ∈ called, ∃ d below, H node = d :: below ∧ d.uuid = uuid ∧
      d.state = .prepared ∧ History.messages (d :: below) = (context node).expected)
    (readable : ∀ n, (clock n).Legible) :
    ∀ entry ∈ (f.sendAll message limit clock called).2, entry.2 = .ok () := by
  induction called generalizing f H with
  | nil => exact List.forall_mem_nil _
  | cons node rest ih =>
    obtain ⟨absent, distinct⟩ := List.nodup_cons.1 distinct
    obtain ⟨d, below, shape, rfl, inFlight, fence⟩ := holds node List.mem_cons_self
    obtain ⟨answer, healthy'⟩ := healthy.close (known node List.mem_cons_self) shape inFlight
      (closing node) fence limit (readable f.calls.length)
    refine List.forall_mem_cons.2 ⟨answer, ?_⟩
    refine ih healthy' distinct (fun other mem => known other (List.mem_cons_of_mem _ mem))
      fun other mem => ?_
    rw [Function.update_of_ne (ne_of_mem_of_not_mem mem absent)]
    exact holds other (List.mem_cons_of_mem _ mem)

end Fleet.Healthy

namespace ChangePass

variable (sender : Sender) (uuid : Uuid) (version : Nat) (change : Change) (count : Address → Nat)
  (patience : Patience) (clock : Clock)

theorem prepareAll_ok (f : Fleet) (earlier nodes : List Address)
    (accepted : ∀ entry ∈ (f.sendAll (prepareFor sender uuid version change count)
      (some patience.call) clock nodes).2, entry.2 = .ok ()) :
    (prepareAll sender uuid version change (targets (count · + 1) earlier)
        (targets count nodes)).run patience clock f =
      ((f.sendAll (prepareFor sender uuid version change count) (some patience.call) clock nodes).1,
        .ok ()) := by
  induction nodes generalizing f earlier with
  | nil => rfl
  | cons node rest ih =>
    obtain ⟨first, others⟩ := List.forall_mem_cons.1 accepted
    have answer : (f.send node (prepareFor sender uuid version change count node)
        (some patience.call) (clock f.calls.length)).2 = .ok () := first
    have later := ih (f.send node (prepareFor sender uuid version change count node)
      (some patience.call) (clock f.calls.length)).1 (earlier ++ [node]) others
    simp only [prepareAll_cons, Pass.run, Fleet.sendAll, answer]
    exact later

theorem carryOut_ok (f : Fleet) (nodes : List Address)
    (prepared : ∀ entry ∈ (f.sendAll (prepareFor sender uuid version change count)
      (some patience.call) clock nodes).2, entry.2 = .ok ())
    (committed : ∀ entry ∈ ((f.sendAll (prepareFor sender uuid version change count)
      (some patience.call) clock nodes).1.sendAll (commitFor sender uuid count) (some patience.call)
        clock nodes).2, entry.2 = .ok ()) :
    ((carryOut sender uuid version change (targets count nodes)).run patience clock f).2 =
      .ok () := by
  have prepares := prepareAll_ok sender uuid version change count patience clock f [] nodes prepared
  rw [show targets (count · + 1) [] = [] from rfl] at prepares
  generalize f.sendAll (prepareFor sender uuid version change count) (some patience.call) clock
    nodes = told at prepares committed
  have commits := (commitAll_run sender uuid count patience clock told.1 .none nodes).1
  have none : failuresOf (told.1.sendAll (commitFor sender uuid count) (some patience.call) clock
      nodes).2 = [] := by
    rw [failuresOf, List.filterMap_eq_nil_iff]
    intro entry mem
    rw [committed entry mem]
  rw [none] at commits
  rw [carryOut, Pass.run_bind, prepares]
  simp only [targets_succ, Pass.run_bind, commits, Pass.run_pure]
  rfl

end ChangePass

/-- A change that all of the nodes accept succeeds, if they are healthy, idle and level. -/
theorem Fleet.Healthy.changePass_ok {f : Fleet} {H : Histories}
    {nodes : List (Address × LogicalState)} {version : Nat} {head : Option Uuid}
    {clock : Clock} (healthy : f.Healthy H (passivesFirst nodes)) (sender : Sender)
    (uuid : Uuid) (change : Change) (patience : Patience)
    (distinct : (passivesFirst nodes).Nodup) (nonempty : passivesFirst nodes ≠ [])
    (level : H.Level (passivesFirst nodes) version head)
    (room : ∀ node ∈ passivesFirst nodes, (H node).length < chainLimit)
    (agree : ∀ node ∈ passivesFirst nodes, ∀ p, f.member? node = some p →
      ∀ l ∈ p.processor.listeners, l.Agrees)
    (accepts : ∀ node ∈ passivesFirst nodes, ∀ p, f.member? node = some p → ∀ n,
      (p.handle (.prepare ⟨sender.context (H node).messages, uuid, version + 1, change⟩)
        (clock n)).2 = .ok ()) (readable : ∀ n, (clock n).Legible) :
    ((changePass sender uuid nodes change).run patience clock f).2 =
      .ok ⟨uuid, version + 1, passivesFirst nodes⟩ := by
  obtain ⟨snapshots, shown, answers, healthy'⟩ :=
    healthy.discoverAll (some patience.discovery) fun _ mem => mem
  have ready := shown.readyVersion_eq nonempty level
  have counted := shown.counts_eq (fun _ mem => mem) []
  have same := f.member?_discoverAll (some patience.discovery) (passivesFirst nodes)
  generalize asked : f.discoverAll (some patience.discovery) (passivesFirst nodes) = round at *
  obtain ⟨g, _⟩ := round
  obtain rfl := answers
  obtain ⟨H', prepared, accepted, carry, -⟩ := healthy'.sendAll_prepare
    (fun node => ⟨sender.context (H node).messages, uuid, version + 1, change⟩)
    (some patience.call) distinct (fun _ => rfl)
    (fun node mem p member => accepts node mem p ((same node).symm.trans member))
    (fun _ mem => mem) room
    (fun node mem p member => agree node mem p ((same node).symm.trans member)) readable
  have committed := prepared.sendAll_close
    (ChangePass.commitFor sender uuid fun node => (H node).messages)
    (fun node => sender.context ((H node).messages + 1)) (some patience.call) distinct
    (fun _ mem => mem) (fun _ => rfl) (fun node mem => by
      obtain ⟨d, shape, same, inFlight⟩ := carry node mem
      refine ⟨d, _, shape, same, inFlight, ?_⟩
      rw [History.messages_cons, if_pos inFlight, Nat.add_comm]
      rfl) readable
  have carried := ChangePass.carryOut_ok sender uuid (version + 1) change
    (fun node => (H node).messages) patience clock g (passivesFirst nodes) accepted committed
  unfold changePass
  dsimp only
  rw [if_neg (by simpa using nonempty), Pass.run_bind]
  simp only [Pass.check, Pass.run, asked, Report.ofAnswers_ok, ready, counted, Outcome.ok_bind,
    Outcome.pure_eq_ok]
  rw [Pass.run_bind, Pass.run_pure]
  exact congrArg (Except.map fun () => (⟨uuid, version + 1, passivesFirst nodes⟩ : ChangeOutcome))
    carried

end Reconfig
