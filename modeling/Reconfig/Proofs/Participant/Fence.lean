/-
The count of a node as a fence.

Whoever sends a message says how many messages it takes the node to have accepted. Over the
whole life of a node every count lets at most one message through, and what the node shows at a
count is the same whenever it is asked.
-/
import Reconfig.Proofs.Participant.Acceptance

namespace Reconfig

namespace Exchanges

/-- If the accepted messages carry the numbers from 0 on, each one carries the number of those
before it. -/
theorem expected_eq {log before after : Exchanges} {m : Message}
    (numbered : log.accepted.map (·.context.expected) = List.range' 0 log.accepted.length)
    (split : log = before ++ (m, .ok ()) :: after) :
    m.context.expected = before.accepted.length := by
  have accepted : log.accepted = before.accepted ++ m :: after.accepted := by
    rw [split, accepted_append]
    rfl
  have there := congrArg (·[before.accepted.length]?) numbered
  simpa [accepted] using there

theorem countP_expected_le_one {log : Exchanges}
    (numbered : log.accepted.map (·.context.expected) = List.range' 0 log.accepted.length)
    (n : Nat) : log.accepted.countP (·.context.expected == n) ≤ 1 := by
  have once : (log.accepted.map (·.context.expected)).count n ≤ 1 := by
    rw [numbered]
    exact List.nodup_iff_count_le_one.1 List.nodup_range' n
  rwa [List.count_eq_countP, List.countP_map] at once

end Exchanges

namespace Participant

variable {p q r : Participant} {log rest : Exchanges}

namespace Continues

variable {accepted : List Prepare} {h h' : History}

theorem state_eq_ok (continues : Continues accepted p h log q h') :
    ∃ state, q.state = .ok state ∧ state.count = h.messages + log.accepted.length := by
  obtain ⟨state, read, tells⟩ := continues.settled.state_eq_ok
  exact ⟨state, read, tells.count.trans continues.messages⟩

theorem shows (continues : Continues accepted p h log q h') {s : Snapshot}
    (found : q.discover = .ok s) : s.Shows h' :=
  Stands.shows ⟨_, _, continues.settled⟩ (found : q.unlimited.discover = .ok s)

/-- A node that has accepted nothing since shows what it showed. -/
theorem discover_eq (continues : Continues accepted p h log q h')
    (same : h.messages = h'.messages) : q.discover = p.discover := by
  have none : log.accepted.length = 0 := by
    have := continues.messages
    omega
  exact (queries_of_store (continues.untouched (List.length_eq_zero_iff.1 none))).1

end Continues

/-- The count of a node is the number of messages that it has accepted. Each of these carried the
number of those before it, so that no two carried the same one. Two snapshots with the same count
are the same. -/
theorem LivesOn.count_fences (new : p.IsNew) (past : p.LivesOn log q) (future : q.LivesOn rest r) :
    (∃ state, q.state = .ok state ∧ state.count = log.accepted.length) ∧
    (∀ s, q.discover = .ok s → s.count = log.accepted.length) ∧
    (∀ (before after : Exchanges) m, log = before ++ (m, .ok ()) :: after →
      m.context.expected = before.accepted.length) ∧
    (∀ n, log.accepted.countP (·.context.expected == n) ≤ 1) ∧
    ∀ s t, q.discover = .ok s → r.discover = .ok t → s.count = t.count → s = t := by
  obtain ⟨h, continues⟩ := past.continues new.settled
  obtain ⟨h', later⟩ := future.continues continues.settled
  have zero : History.messages [] = 0 := rfl
  have numbered := continues.expected
  have messages := continues.messages
  have known := continues.state_eq_ok
  rw [zero] at numbered
  rw [zero, Nat.zero_add] at messages known
  refine ⟨known, fun s found => (continues.shows found).count.trans messages,
    fun before after m split => Exchanges.expected_eq numbered split,
    Exchanges.countP_expected_le_one numbered, fun s t found found' same => ?_⟩
  rw [(continues.shows found).count, (later.shows found').count] at same
  rw [later.discover_eq same, found] at found'
  exact Except.ok.inj found'

/-- Of two coordinators that know of no message one is heard, and a commit that knows of one
message is heard after a restart. -/
theorem contested_count_fences : ∃ (p q r : Participant) (refusal : Rejection) (s t : Snapshot),
    p.IsNew ∧ p.LivesOn [(.prepare foundingPrepare, .ok ()),
      (.prepare rivalPrepare, .error refusal)] q ∧
    q.LivesOn [(.commit foundingCommit, .ok ())] r ∧ q.discover = .ok s ∧ s.count = 1 ∧
    r.discover = .ok t ∧ t.count = 2 := by
  obtain ⟨p, q, r, d, refusal, started, lives, later, ⟨⟨_, settled⟩, -⟩, ⟨⟨_, settled'⟩, -⟩, -⟩ :=
    contested_lives
  have new : p.IsNew := ⟨_, _, _, .memory, started⟩
  obtain ⟨s, found⟩ := settled.discover_eq_ok (show 1 ≤ chainLimit by decide)
  obtain ⟨t, found'⟩ := settled'.discover_eq_ok (show 1 ≤ chainLimit by decide)
  obtain ⟨-, before, -⟩ := lives.count_fences new later
  obtain ⟨-, after, -⟩ := (lives.trans later).count_fences new .here
  exact ⟨p, q, r, refusal, s, t, new, lives, later, found, before s found, found', after t found'⟩

end Participant
end Reconfig
