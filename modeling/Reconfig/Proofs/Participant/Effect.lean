/-
The topology in effect.

A node keeps the topology in effect beside its store, and takes it from there only when it
starts. Over a store in memory the two never part: a commit that somebody objects to changes
neither, and one that takes effect is always written.
-/
import Reconfig.Proofs.Participant.Acceptance

namespace Reconfig
namespace Participant

variable {p q : Participant} {log : Exchanges} {h h' : History} {limits : Limits}
  {accepted : List Prepare} {m : Message} {now : Timestamp}

/-- The store is in memory, and the committed topology is in effect. -/
structure InEffect (p : Participant) (h : History) : Prop where
  memory : p.store.InMemory
  runtime : p.runtimeTopology = h.topology

theorem start_empty (name : String) (processor : Processor) : start name .empty processor =
    .ok ⟨name, .memory (NodeState.initialWrites.applyTo ∅), processor.load none⟩ := rfl

theorem inEffect_unlimited : p.unlimited.InEffect h ↔ p.InEffect h :=
  ⟨fun ⟨memory, runtime⟩ => ⟨memory, runtime⟩, fun ⟨memory, runtime⟩ => ⟨memory, runtime⟩⟩

namespace InEffect

/-- Closing the request in flight makes its result effective just where it is committed. -/
theorem close (inEffect : p.InEffect h) (settled : Settled limits accepted p h)
    {d : ChangeDetails} {below : History} {context : Context} {target : ChangeState}
    (shape : h = d :: below) (inFlight : d.state = .prepared)
    (closing : m.closing? = some (context, d.uuid, target))
    (fence : h.messages = context.expected) (done : (p.handle m now).2 = .ok ()) :
    (p.handle m now).1.runtimeTopology = History.topology (d.inState target :: below) := by
  subst shape
  obtain ⟨kind, closes, rfl⟩ := Message.closes?_of_closing? closing
  have before : History.topology (d :: below) = History.topology below := by
    rw [History.topology_cons, if_neg (by simp [inFlight])]
  rw [settled.runtime_of_closed inFlight closes (Message.target_ne_prepared closing) fence
    (Prod.ext rfl done), History.topology_cons, inEffect.runtime, before]
  rfl

theorem handle (inEffect : p.InEffect h) (settled : Settled limits accepted p h)
    (taken : (p.handle m now).2 = .ok () ∧ History.Accepts limits h m now h' ∨
      (∃ r, (p.handle m now).2 = .error r) ∧ h' = h) : (p.handle m now).1.InEffect h' := by
  refine ⟨Stands.inMemory_handle ⟨_, _, settled⟩ m now inEffect.memory, ?_⟩
  rcases taken with ⟨done, accepts⟩ | ⟨⟨r, refused⟩, rfl⟩
  · cases accepts with
    | prepare =>
      rw [runtimeTopology, processor_prepare, History.topology_cons]
      exact inEffect.runtime
    | close closing fence inFlight => exact inEffect.close settled rfl inFlight closing fence done
  · have kept := settled.runtime_of_refused (Prod.ext rfl refused)
      fun d overflows => overflows.not_inMemory inEffect.memory
    exact kept.trans inEffect.runtime

theorem restart (inEffect : p.InEffect h) (settled : Settled limits accepted p h) {name : String}
    {store : Store} {processor : Processor} (reopened : p.store.reopened = .ok store)
    (started : start name store processor = .ok q) : q.InEffect h := by
  obtain ⟨⟨space, memory⟩, -⟩ := inEffect
  have same : p.store = store := by
    rw [memory] at reopened ⊢
    exact Except.ok.inj reopened
  rw [← same, settled.start_eq] at started
  split at started
  · cases started
    exact ⟨⟨space, memory⟩, rfl⟩
  · cases started

end InEffect

theorem LivesOn.inEffect (lives : p.LivesOn log q) (inEffect : p.InEffect h)
    (settled : Settled ⟨none⟩ accepted p.unlimited h) :
    ∃ h', Settled ⟨none⟩ (log.prepared.reverse ++ accepted) q.unlimited h' ∧ q.InEffect h' := by
  induction lives with
  | here => exact ⟨h, settled, inEffect⟩
  | @handled log q _ m now storable ih =>
    obtain ⟨h', settled, inEffect⟩ := ih
    rw [log.reverse_prepared_concat, List.append_assoc]
    rcases q.handle_unlimited m now with same | ⟨unchanged, r, refused⟩
    · obtain ⟨h'', settled', taken⟩ := settled.handle m storable
      have inEffect' := (inEffect_unlimited.2 inEffect).handle settled taken
      rw [same] at settled' inEffect'
      exact ⟨h'', settled', inEffect_unlimited.1 inEffect'⟩
    · rw [unchanged, refused, m.accepted?_error]
      exact ⟨h', settled, inEffect⟩
  | restarted _ reopened started ih =>
    obtain ⟨h', settled, inEffect⟩ := ih
    have started := start_unlimited started
    have inEffect := (inEffect_unlimited.2 inEffect).restart settled reopened started
    exact ⟨h', settled.restart reopened rfl started, inEffect_unlimited.1 inEffect⟩

namespace InEffect

variable (inEffect : p.InEffect h) (settled : Settled limits accepted p h)

include inEffect settled

theorem committedTopology_eq : p.committedTopology =
    if h.length ≤ chainLimit then .ok p.runtimeTopology
    else .error (.corrupted "change chain loops") := by
  rw [settled.committedTopology_eq, inEffect.runtime]

/-- A node that accepts changes has none to come. -/
theorem upcomingTopology_of_accepting (idle : h.mode = .accepting)
    (short : h.length ≤ chainLimit) : p.upcomingTopology = .ok p.runtimeTopology := by
  rw [inEffect.runtime]
  cases h with
  | nil => exact settled.upcomingTopology_nil
  | cons d below =>
    rw [settled.upcomingTopology_cons, settled.committedTopology_eq, if_pos short]
    have closed := History.mode_eq_accepting_iff.1 idle d rfl
    cases state : d.state with
    | prepared => exact absurd state closed
    | committed => rw [if_neg (by decide), History.topology_cons, if_pos state]
    | rolledBack => rfl

/-- In a node that holds a change, the result of the change is to come. -/
theorem upcomingTopology_of_prepared (holding : h.mode = .prepared) :
    ∃ d, h.latest = some d.uuid ∧ p.space.request? d.uuid = .ok (some d) ∧ d.state = .prepared ∧
      d.change.apply p.runtimeTopology = .ok d.result ∧
      p.upcomingTopology = .ok (some d.result) := by
  obtain ⟨d, below, rfl, inFlight⟩ := History.mode_eq_prepared_iff.1 holding
  refine ⟨d, rfl, settled.request?_of_mem List.mem_cons_self, inFlight, ?_, ?_⟩
  · rw [inEffect.runtime, History.topology_cons, if_neg (by simp [inFlight])]
    cases settled.sound with
    | cons _ _ _ _ _ valid => exact (Change.validate_eq_ok.1 valid).1
  · rw [settled.upcomingTopology_cons, if_neg (by simp [inFlight])]

end InEffect

/-- Whatever befalls a node over a store in memory, the topology in effect is the committed one. It
is also the one to come while the node accepts changes. Otherwise the change that the node holds
applies to it, and the result of that is to come. -/
theorem LivesOn.topologies_agree {name : String} {processor : Processor}
    (started : start name .empty processor = .ok p) (lives : p.LivesOn log q) :
    q.committedTopology = (if log.prepared.length ≤ chainLimit then .ok q.runtimeTopology
      else .error (.corrupted "change chain loops")) ∧
    ∃ state, q.state = .ok state ∧
      (state.mode = .accepting → log.prepared.length ≤ chainLimit →
        q.upcomingTopology = .ok q.runtimeTopology) ∧
      (state.mode = .prepared → ∃ d, state.latest = some d.uuid ∧
        q.space.request? d.uuid = .ok (some d) ∧ d.state = .prepared ∧
        d.change.apply q.runtimeTopology = .ok d.result ∧
        q.upcomingTopology = .ok (some d.result)) := by
  have new : p.IsNew := ⟨_, _, _, .memory, started⟩
  rw [start_empty] at started
  cases started
  obtain ⟨h, settled, inEffect⟩ := lives.inEffect ⟨⟨_, rfl⟩, rfl⟩ new.settled
  have inEffect := inEffect_unlimited.2 inEffect
  have length : log.prepared.length = h.length := by simp [settled.length_eq]
  obtain ⟨state, read, tells⟩ := settled.state_eq_ok
  rw [length]
  refine ⟨inEffect.committedTopology_eq settled, state, read, fun idle short => ?_,
    fun holding => ?_⟩
  · exact inEffect.upcomingTopology_of_accepting settled (tells.mode.symm.trans idle) short
  · rw [tells.latest]
    exact inEffect.upcomingTopology_of_prepared settled (tells.mode.symm.trans holding)

/-- The founding that a node holds is to come, and is in effect once it is committed. -/
theorem contested_topologies_agree : ∃ (p q r : Participant) (refusal : Rejection),
    start "n" .empty (.new ⟨none⟩ []) = .ok p ∧
    p.LivesOn [(.prepare foundingPrepare, .ok ()), (.prepare rivalPrepare, .error refusal)] q ∧
    q.LivesOn [(.commit foundingCommit, .ok ())] r ∧
    q.runtimeTopology = none ∧ q.upcomingTopology = .ok (some foundedCluster) ∧
    r.committedTopology = .ok (some foundedCluster) ∧ r.runtimeTopology = some foundedCluster ∧
    r.upcomingTopology = .ok (some foundedCluster) := by
  obtain ⟨p, q, r, d, refusal, started, lives, later, ⟨⟨_, settled⟩, -⟩, ⟨⟨_, settled'⟩, -⟩, -,
    inFlight, result⟩ := contested_lives
  have few : 1 ≤ chainLimit := by decide
  obtain ⟨before, state, read, -, holding⟩ := lives.topologies_agree started
  obtain ⟨after, state', read', idle, -⟩ := (lives.trans later).topologies_agree started
  have mode : state.mode = .prepared :=
    (tells_of_state settled.keeps read).mode.trans
      (History.mode_eq_prepared_iff.2 ⟨d, [], rfl, inFlight⟩)
  have mode' : state'.mode = .accepting := (tells_of_state settled'.keeps read').mode
  have nothing : q.committedTopology = .ok none := by
    rw [settled.committedTopology_eq, if_pos (show [d].length ≤ chainLimit from few),
      History.topology_cons, if_neg (by simp [inFlight])]
    rfl
  have founded : r.committedTopology = .ok (some foundedCluster) := by
    rw [settled'.committedTopology_eq,
      if_pos (show [d.inState .committed].length ≤ chainLimit from few), ← result]
    rfl
  obtain ⟨e, -, asked, -, -, upcoming⟩ := holding mode
  obtain rfl : e = d := List.mem_singleton.1 (settled.request?_eq_some.1 asked).1
  rw [result] at upcoming
  have idle' : q.runtimeTopology = none :=
    (Except.ok.inj (nothing.symm.trans (before.trans (if_pos few)))).symm
  have runtime : r.runtimeTopology = some foundedCluster :=
    (Except.ok.inj (founded.symm.trans (after.trans (if_pos few)))).symm
  have upcoming' := idle mode' few
  rw [runtime] at upcoming'
  exact ⟨p, q, r, refusal, started, lives, later, idle', upcoming, founded, runtime, upcoming'⟩

end Participant
end Reconfig
