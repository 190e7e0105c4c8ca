/-
Requests are for good.

A node never forgets a change request and never makes it anew. All that may happen to a request
is that it is closed, and that happens once.
-/
import Reconfig.Proofs.Participant.Acceptance

namespace Reconfig
namespace Participant

variable {p q r : Participant} {log rest : Exchanges} {h h' : History} {accepted : List Prepare}
  {uuid : Uuid}

/-- A node refuses to prepare a change whose identity it knows. -/
theorem prepare_refused_of_known (settled : Settled ⟨none⟩ accepted p.unlimited h) {m : Prepare}
    (known : ∃ d ∈ h, d.uuid = m.uuid) (now : Timestamp) :
    ∃ refusal, (p.handle (.prepare m) now).2 = .error refusal := by
  rcases p.handle_unlimited (.prepare m) now with same | ⟨-, refused⟩
  · cases answer : (p.handle (.prepare m) now).2 with
    | error refusal => exact ⟨refusal, rfl⟩
    | ok =>
      have done : (p.unlimited.handle (.prepare m) now).2 = .ok () := by rw [same, answer]
      obtain ⟨h', accepts⟩ := accepts_of_ok settled done
      obtain ⟨_, -, -, -, fresh, -⟩ := accepts.of_prepare
      obtain ⟨d, mem, same⟩ := known
      exact absurd same (fresh d mem)
  · exact refused

namespace Continues

/-- A new node has a request for every prepare message that it has accepted, and no other one. -/
theorem exists_request_iff {change : Change} (continues : Continues [] p h log q h') :
    (∃ d ∈ h', d.uuid = uuid ∧ d.change = change) ↔
      ∃ m : Prepare, (.prepare m, .ok ()) ∈ log ∧ m.uuid = uuid ∧ m.change = change := by
  have requested : (uuid, change) ∈ h'.map (fun d => (d.uuid, d.change)) ↔
      (uuid, change) ∈ (log.prepared.reverse ++ []).map fun m : Prepare => (m.uuid, m.change) := by
    rw [continues.settled.requests]
  simpa [Exchanges.mem_prepared] using requested

theorem request? (continues : Continues accepted p h log q h')
    (settled : Settled ⟨none⟩ accepted p.unlimited h) {d : ChangeDetails}
    (stored : p.space.request? uuid = .ok (some d)) : ∃ state,
      q.space.request? uuid = .ok (some (d.inState state)) ∧
        (state = d.state ∨ d.state = .prepared ∧ state ≠ .prepared) := by
  obtain ⟨mem, same⟩ := settled.request?_eq_some.1 stored
  obtain ⟨state, mem', was⟩ := continues.leads.mem mem
  exact ⟨state, continues.settled.request?_eq_some.2 ⟨mem', same⟩, was⟩

end Continues

/-- A node stores one request for each prepare message that it has accepted, and no other one. The
request stays as it is but for its state, which changes when the request is closed and never
again, and no prepare message with its identity is accepted afterwards. -/
theorem LivesOn.requests_permanent (new : p.IsNew) (past : p.LivesOn log q)
    (future : q.LivesOn rest r) :
    (∀ uuid, (∀ m : Prepare, (.prepare m, .ok ()) ∈ log → m.uuid ≠ uuid) →
      q.space.requestRecord? uuid = none) ∧
    (∀ m : Prepare, (.prepare m, .ok ()) ∈ log →
      ∃ d, q.space.request? m.uuid = .ok (some d) ∧ d.change = m.change) ∧
    (∀ uuid d, q.space.request? uuid = .ok (some d) → ∃ state,
      r.space.request? uuid = .ok (some (d.inState state)) ∧
        (state = d.state ∨ d.state = .prepared ∧ (state = .committed ∨ state = .rolledBack))) ∧
    (∀ uuid d, q.space.request? uuid = .ok (some d) → d.state ≠ .prepared →
      r.space.request? uuid = .ok (some d)) ∧
    ∀ m again : Prepare, (.prepare m, .ok ()) ∈ log → again.uuid = m.uuid → ∀ now,
      ∃ refusal, (r.handle (.prepare again) now).2 = .error refusal := by
  obtain ⟨h, before⟩ := past.continues new.settled
  obtain ⟨h', after⟩ := future.continues before.settled
  refine ⟨fun uuid unused => ?_, fun m mem => ?_, fun uuid d stored => ?_,
    fun uuid d stored closed => ?_, fun m again mem same now => ?_⟩
  · refine before.settled.keeps.requestRecord?_of_absent fun d mem same => ?_
    obtain ⟨m, accepted, same, -⟩ := before.exists_request_iff.1 ⟨d, mem, same, rfl⟩
    exact unused m accepted same
  · obtain ⟨d, mem, same, change⟩ := before.exists_request_iff.2 ⟨m, mem, rfl, rfl⟩
    exact ⟨d, before.settled.request?_eq_some.2 ⟨mem, same⟩, change⟩
  · obtain ⟨state, stored', was⟩ := after.request? before.settled stored
    refine ⟨state, stored', was.imp_right fun ⟨inFlight, closed⟩ => ⟨inFlight, ?_⟩⟩
    cases state with
    | prepared => exact absurd rfl closed
    | committed => exact .inl rfl
    | rolledBack => exact .inr rfl
  · obtain ⟨state, stored', rfl | ⟨inFlight, -⟩⟩ := after.request? before.settled stored
    · exact stored'
    · exact absurd inFlight closed
  · obtain ⟨d, mem, known, -⟩ := before.exists_request_iff.2 ⟨m, mem, rfl, rfl⟩
    have known : ∃ e ∈ h', e.uuid = again.uuid :=
      after.leads.exists_uuid ⟨d, mem, known.trans same.symm⟩
    exact prepare_refused_of_known after.settled known now

/-- The founding that a node has prepared is committed after a restart, and cannot be prepared
again. -/
theorem contested_requests_permanent : ∃ (p q r : Participant) (refusal : Rejection)
    (d : ChangeDetails), p.IsNew ∧ p.LivesOn [(.prepare foundingPrepare, .ok ()),
      (.prepare rivalPrepare, .error refusal)] q ∧
    q.LivesOn [(.commit foundingCommit, .ok ())] r ∧ d.state = .prepared ∧ d.change = founding ∧
    q.space.request? foundingPrepare.uuid = .ok (some d) ∧
    r.space.request? foundingPrepare.uuid = .ok (some (d.inState .committed)) ∧
    q.space.requestRecord? rivalPrepare.uuid = none ∧
    ∃ refusal, (r.handle (.prepare foundingPrepare) noon).2 = .error refusal := by
  obtain ⟨p, q, r, d, refusal, started, lives, later, ⟨⟨_, settled⟩, -⟩, ⟨⟨_, settled'⟩, -⟩, uuid,
    inFlight, -⟩ := contested_lives
  have new : p.IsNew := ⟨_, _, _, .memory, started⟩
  obtain ⟨others, stored, kept, -, never⟩ := lives.requests_permanent new later
  have unused : ∀ m : Prepare, (.prepare m, .ok ()) ∈ ([(.prepare foundingPrepare, .ok ()),
      (.prepare rivalPrepare, .error refusal)] : Exchanges) → m.uuid ≠ rivalPrepare.uuid := by
    intro m mem
    have same : m = foundingPrepare := by simpa using mem
    rw [same]
    decide
  obtain ⟨e, asked, change⟩ := stored foundingPrepare List.mem_cons_self
  obtain rfl : e = d := List.mem_singleton.1 (settled.request?_eq_some.1 asked).1
  obtain ⟨state, asked', -⟩ := kept _ _ asked
  have closed : e.inState state = e.inState .committed :=
    List.mem_singleton.1 (settled'.request?_eq_some.1 asked').1
  rw [closed] at asked'
  exact ⟨p, q, r, refusal, e, new, lives, later, inFlight, change, asked, asked', others _ unused,
    never foundingPrepare foundingPrepare List.mem_cons_self rfl noon⟩

end Participant
end Reconfig
