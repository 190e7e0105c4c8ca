/-
Nodes that can be reached and do not fail.

Such nodes answer every question and close every request that they are told to by
somebody who knows their state.
-/
import Reconfig.Proofs.Coordination.Shown

namespace Reconfig

theorem Fleet.member?_discoverAll (f : Fleet) (limit : Option Span) (asked : List Address)
    (node : Address) : (f.discoverAll limit asked).1.member? node = f.member? node := by
  induction asked generalizing f with
  | nil => rfl
  | cons other rest ih => exact (ih (f.discover other limit).1).trans rfl

/-- Nodes that answer every question, and agree to close what they hold open. -/
structure Fleet.Healthy (f : Fleet) (H : Histories) (nodes : List Address) : Prop where
  faults : f.faults = []
  records : f.Records H
  sturdy : f.Sturdy H
  member : ∀ node ∈ nodes, ∃ p, f.member? node = some p
  short : ∀ node ∈ nodes, (H node).length ≤ chainLimit
  agree : ∀ {node p}, f.member? node = some p → (H node).mode = .prepared →
    ∀ l ∈ p.processor.listeners, l.Agrees

namespace Fleet
namespace Healthy

variable {f : Fleet} {H : Histories} {nodes : List Address}

theorem record (healthy : f.Healthy H nodes) (node : Address) (phase : Phase) :
    (f.record node phase).Healthy H nodes :=
  ⟨healthy.faults, ⟨healthy.records.keeps, healthy.records.sound⟩,
    ⟨healthy.sturdy.memory, healthy.sturdy.legible⟩, healthy.member, healthy.short, healthy.agree⟩

theorem reach (healthy : f.Healthy H nodes) {node : Address} {p : Participant}
    (member : f.member? node = some p) (phase : Phase) (limit : Option Span) :
    f.reach node phase limit = .ok p := by
  rw [Fleet.reach, healthy.faults, member]
  rfl

theorem discover (healthy : f.Healthy H nodes) {node : Address} (mem : node ∈ nodes)
    (limit : Option Span) : ∃ s, s.Shows (H node) ∧
      f.discover node limit = (f.record node .discover, .ok s) := by
  obtain ⟨p, member⟩ := healthy.member node mem
  have keeps := healthy.records.keeps member
  have sound := healthy.records.sound member
  obtain ⟨s, found⟩ := (Participant.discover_eq_ok_iff keeps sound).2
    ⟨healthy.sturdy.legible member, healthy.short node mem⟩
  refine ⟨s, Participant.shows_of_discover keeps sound found, ?_⟩
  rw [Fleet.discover, healthy.reach member]
  simp only [found, Outcome.mapError_ok]

theorem discoverAll (healthy : f.Healthy H nodes) (limit : Option Span) {asked : List Address}
    (known : ∀ node ∈ asked, node ∈ nodes) : ∃ snapshots : Snapshots, snapshots.Show asked H ∧
      (f.discoverAll limit asked).2 = snapshots.map (fun entry => (entry.1, .ok entry.2)) ∧
      (f.discoverAll limit asked).1.Healthy H nodes := by
  induction asked generalizing f with
  | nil => exact ⟨[], ⟨rfl, by simp⟩, rfl, healthy⟩
  | cons node rest ih =>
    obtain ⟨s, shows, found⟩ := healthy.discover (known node List.mem_cons_self) limit
    obtain ⟨snapshots, shown, answers, healthy⟩ := ih (healthy.record node .discover)
      fun other mem => known other (List.mem_cons_of_mem _ mem)
    refine ⟨(node, s) :: snapshots, ⟨by simp [shown.nodes], fun entry mem => ?_⟩, ?_, ?_⟩
    · rcases List.mem_cons.1 mem with rfl | mem
      · exact shows
      · exact shown.shows entry mem
    · simp only [Fleet.discoverAll, found, answers, List.map_cons]
    · simpa only [Fleet.discoverAll, found] using healthy

theorem check (healthy : f.Healthy H nodes) (patience : Patience) (clock : Clock) :
    ∃ snapshots : Snapshots, snapshots.Show nodes H ∧
      ((Pass.check nodes).run patience clock f).2 = ⟨snapshots, []⟩ ∧
      ((Pass.check nodes).run patience clock f).1.Healthy H nodes := by
  obtain ⟨snapshots, shown, answers, healthy⟩ :=
    healthy.discoverAll (some patience.discovery) fun _ mem => mem
  refine ⟨snapshots, shown, ?_, healthy⟩
  rw [← Report.ofAnswers_ok, ← answers]
  rfl

theorem deliver (healthy : f.Healthy H nodes) {node : Address} {p : Participant} {m : Message}
    {now : Timestamp} {h : History} (keeps : (p.handle m now).1.space.Keeps h)
    (sound : History.Sound (p.handle m now).1.processor.limits h)
    (memory : (p.handle m now).1.store.InMemory) (legible : (p.handle m now).1.space.Legible h)
    (short : h.length ≤ chainLimit)
    (agree : h.mode = .prepared → ∀ l ∈ (p.handle m now).1.processor.listeners, l.Agrees) :
    (f.deliver node p m now).1.Healthy (Function.update H node h) nodes where
  faults := healthy.faults
  records :=
    ⟨deliver_forall (P := fun p h => p.space.Keeps h) healthy.records.keeps keeps,
      deliver_forall (P := fun p h => History.Sound p.processor.limits h)
        healthy.records.sound sound⟩
  sturdy :=
    ⟨deliver_forall (P := fun p _ => p.store.InMemory) (H := H) (h := h) healthy.sturdy.memory
        memory,
      deliver_forall (P := fun p h => p.space.Legible h) healthy.sturdy.legible legible⟩
  member other called := by
    rw [member?_deliver]
    split
    · exact ⟨_, rfl⟩
    · exact healthy.member other called
  short other called := by
    by_cases here : other = node
    · rw [here, Function.update_self]
      exact short
    · rw [Function.update_of_ne here]
      exact healthy.short other called
  agree member := deliver_forall
    (P := fun p h => h.mode = .prepared → ∀ l ∈ p.processor.listeners, l.Agrees)
    healthy.agree agree member

theorem send_eq (healthy : f.Healthy H nodes) {node : Address} {p : Participant}
    (member : f.member? node = some p) (m : Message) (limit : Option Span) (now : Timestamp) :
    f.send node m limit now = (((f.record node m.phase).deliver node p m now).1,
      (p.handle m now).2.mapError .rejected) := by
  rw [send, healthy.reach member]
  rfl

/-- A message that knows the state of a node closes the request in flight. -/
theorem close (healthy : f.Healthy H nodes) {node : Address} (mem : node ∈ nodes)
    {d : ChangeDetails} {below : History} (shape : H node = d :: below)
    (inFlight : d.state = .prepared) {m : Message} {context : Context} {target : ChangeState}
    (closing : m.closing? = some (context, d.uuid, target))
    (fence : History.messages (d :: below) = context.expected) (limit : Option Span)
    {now : Timestamp} (readable : now.Legible) : (f.send node m limit now).2 = .ok () ∧
      (f.send node m limit now).1.Healthy
        (Function.update H node (d.inState target :: below)) nodes := by
  obtain ⟨p, member⟩ := healthy.member node mem
  have keeps := healthy.records.keeps member
  have sound := healthy.records.sound member
  have legible := healthy.sturdy.legible member
  have memory := healthy.sturdy.memory member
  have short := healthy.short node mem
  rw [shape] at keeps sound legible short
  have agree : ∀ l ∈ p.processor.listeners, l.Agrees := by
    refine healthy.agree member ?_
    rw [shape]
    exact History.mode_eq_prepared_iff.2 ⟨d, below, rfl, inFlight⟩
  have accepted := Participant.closing_eq_ok keeps sound legible memory agree inFlight closing
    fence now
  obtain ⟨h, keeps', sound', taken, memory', legible'⟩ :=
    (Participant.handled keeps sound m now).history keeps sound
  have after : h = d.inState target :: below := by
    rcases taken with ⟨-, accepts⟩ | ⟨⟨e, refused⟩, -⟩
    · obtain ⟨e, rest, shape', -, -, -, after⟩ := accepts.of_closing closing
      cases shape'
      exact after
    · rw [refused] at accepted
      cases accepted
  subst after
  have idle : History.mode (d.inState target :: below) ≠ .prepared := by
    rw [History.mode]
    simp [Message.target_ne_prepared closing]
  rw [healthy.send_eq member, accepted]
  exact ⟨rfl, (healthy.record node m.phase).deliver keeps' sound' (memory' memory)
    (legible' readable legible) short fun prepared => absurd prepared idle⟩

theorem prepare (healthy : f.Healthy H nodes) {node : Address} {p : Participant} {m : Prepare}
    {now : Timestamp} (member : f.member? node = some p)
    (accepted : (p.handle (.prepare m) now).2 = .ok ()) (room : (H node).length < chainLimit)
    (agree : ∀ l ∈ p.processor.listeners, l.Agrees) (limit : Option Span)
    (readable : now.Legible) : ∃ d, d.uuid = m.uuid ∧ d.state = .prepared ∧
      (f.send node (.prepare m) limit now).2 = .ok () ∧
      (f.send node (.prepare m) limit now).1.Healthy (Function.update H node (d :: H node))
        nodes := by
  have keeps := healthy.records.keeps member
  have sound := healthy.records.sound member
  have legible := healthy.sturdy.legible member
  have memory := healthy.sturdy.memory member
  obtain ⟨h, keeps', sound', taken, memory', legible'⟩ :=
    (Participant.handled keeps sound (.prepare m) now).history keeps sound
  rcases taken with ⟨-, accepts⟩ | ⟨⟨e, refused⟩, -⟩
  · obtain ⟨result, -, -, -, -, -, rfl⟩ := accepts.of_prepare
    refine ⟨(H node).request m result now, rfl, rfl, ?_, ?_⟩
    · rw [healthy.send_eq member, accepted]
      rfl
    · rw [healthy.send_eq member]
      refine (healthy.record node .prepare).deliver keeps' sound' (memory' memory)
        (legible' readable legible) room fun _ => ?_
      rw [Participant.processor_prepare]
      exact agree
  · rw [refused] at accepted
    cases accepted

theorem refuse (healthy : f.Healthy H nodes) {node : Address} (mem : node ∈ nodes)
    (idle : (H node).mode = .accepting) {m : Message} {context : Context} {uuid : Uuid}
    {target : ChangeState} (closing : m.closing? = some (context, uuid, target))
    (limit : Option Span) {now : Timestamp} (readable : now.Legible) :
    ∃ e, (f.send node m limit now).2 = .error e ∧
      (f.send node m limit now).1.Healthy H nodes := by
  obtain ⟨p, member⟩ := healthy.member node mem
  have keeps := healthy.records.keeps member
  have sound := healthy.records.sound member
  obtain ⟨h, keeps', sound', taken, memory', legible'⟩ :=
    (Participant.handled keeps sound m now).history keeps sound
  rcases taken with ⟨-, accepts⟩ | ⟨⟨e, refused⟩, rfl⟩
  · obtain ⟨d, below, shape, -, inFlight, -⟩ := accepts.of_closing closing
    rw [History.mode_eq_prepared_iff.2 ⟨d, below, shape, inFlight⟩] at idle
    cases idle
  · refine ⟨.rejected e, ?_, ?_⟩
    · rw [healthy.send_eq member, refused]
      rfl
    · rw [healthy.send_eq member]
      have same : ((f.record node m.phase).deliver node p m now).1.Healthy
          (Function.update H node (H node)) nodes :=
        (healthy.record node m.phase).deliver keeps' sound' (memory' (healthy.sturdy.memory member))
          (legible' readable (healthy.sturdy.legible member)) (healthy.short node mem)
          fun prepared => absurd (idle.symm.trans prepared) (by decide)
      rwa [Function.update_eq_self] at same

/-! ## The calls to such nodes -/

theorem send_serves (healthy : f.Healthy H nodes) {node : Address} (mem : node ∈ nodes)
    (m : Message) (limit : Option Span) (now : Timestamp) : ∃ delivery,
      (Event.sent node m delivery (f.send node m limit now).2).Answered ∧
      ∀ answer, (answer = (f.send node m limit now).2 ∨ ∃ e, answer = .error e) →
        f.Serves (.sent node m delivery answer) (f.send node m limit now).1 := by
  obtain ⟨p, member⟩ := healthy.member node mem
  rw [healthy.send_eq member]
  exact ⟨some (now, (p.handle m now).2), ⟨now, _, rfl, rfl⟩,
    fun answer back => .delivered member rfl back⟩

theorem member?_send (healthy : f.Healthy H nodes) {node other : Address} (mem : node ∈ nodes)
    (m : Message) (limit : Option Span) (now : Timestamp) (different : other ≠ node) :
    (f.send node m limit now).1.member? other = f.member? other := by
  obtain ⟨p, member⟩ := healthy.member node mem
  rw [healthy.send_eq member, member?_deliver, if_neg different, member?_record]

theorem discoverAll_serves (healthy : f.Healthy H nodes) (limit : Option Span) :
    ∃ (snapshots : Snapshots) (next : Fleet), snapshots.Show nodes H ∧ next.Healthy H nodes ∧
      f.ServesAll (snapshots.map fun entry => .asked entry.1 (.ok entry.2)) next ∧
      ∀ node, next.member? node = f.member? node := by
  obtain ⟨snapshots, shown, answers, healthy⟩ := healthy.discoverAll limit fun _ mem => mem
  have served := (f.discoverAll_serves limit nodes).2
  rw [answers, List.map_map] at served
  exact ⟨snapshots, _, shown, healthy, served, f.member?_discoverAll limit nodes⟩

end Healthy
end Fleet
end Reconfig
