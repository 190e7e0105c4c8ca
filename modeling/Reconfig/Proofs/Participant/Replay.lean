/-
The committed topology is what the committed changes make of nothing.

A node computes the result of a change when it prepares it, from the newest committed
result in its chain, and takes it over as it is when it commits. So the results form one
line: each is its change applied to the result before it, whatever was rolled back in
between, and the last one is the committed topology.
-/
import Mathlib.Data.List.Forall2
import Reconfig.Proofs.Participant.Lifetime

namespace Reconfig

namespace Change

/-- The results of the changes in order, each of which is applied to the result of the
change before it. -/
def replay (current : Option Cluster) : List Change → Except Fault (List Cluster)
  | [] => .ok []
  | change :: rest => do
    let result ← change.apply current
    let results ← replay (some result) rest
    pure (result :: results)

variable {change : Change} {current : Option Cluster} {result : Cluster}

theorem replay_concat {changes : List Change} {results : List Cluster}
    (replayed : replay current changes = .ok results)
    (applied : change.apply (results.getLast?.or current) = .ok result) :
    replay current (changes ++ [change]) = .ok (results ++ [result]) := by
  induction changes generalizing current results with
  | nil =>
    cases replayed
    have first : change.apply current = .ok result := applied
    simp [replay, first]
  | cons first rest ih =>
    obtain ⟨next, here, replayed⟩ := Outcome.bind_eq_ok.1 replayed
    obtain ⟨more, there, collected⟩ := Outcome.bind_eq_ok.1 replayed
    cases collected
    have last : (next :: more).getLast?.or current = more.getLast?.or (some next) := by
      rw [List.getLast?_cons]
      cases more.getLast? <;> rfl
    rw [last] at applied
    simp [replay, here, ih there applied]

end Change

namespace History

variable {limits : Limits} {h : History}

theorem topology_eq_getLast? (h : History) :
    h.topology = (h.committed.reverse.map (·.result)).getLast? := by
  rw [topology, List.getLast?_map, List.getLast?_reverse]

theorem Sound.replay (sound : Sound limits h) :
    Change.replay none (h.committed.reverse.map (·.change)) =
      .ok (h.committed.reverse.map (·.result)) := by
  induction sound with
  | nil => rfl
  | @cons d h _ _ _ _ _ valid _ ih =>
    rw [committed_cons]
    split
    · have applied := (Change.validate_eq_ok.1 valid).1
      rw [topology_eq_getLast?, ← Option.or_none (o := List.getLast? _)] at applied
      rw [List.reverse_cons, List.map_append, List.map_append]
      exact Change.replay_concat ih applied
    · exact ih

theorem Sound.formed (sound : Sound limits h) : ∀ d ∈ h,
    d.result.checkStructure = .ok () ∧ d.result.checkCapacity limits = .ok () := by
  induction sound with
  | nil => simp
  | cons _ _ _ _ _ valid _ ih =>
    exact List.forall_mem_cons.2 ⟨(Change.validate_eq_ok.1 valid).2, ih⟩

end History

namespace Participant

/-- The committed changes of the chain, the oldest first, lead from no topology at all to
the committed one, and a change in flight starts from there. -/
structure Replays (p : Participant) (limits : Limits) (entries : List LineageEntry)
    (committed : List ChangeDetails) (results : List Cluster) : Prop where
  stored : List.Forall₂ (fun e d => p.space.request? e.uuid = .ok (some d))
    (entries.filter (·.state == .committed)).reverse committed
  replay : Change.replay none (committed.map (·.change)) = .ok results
  kept : committed.map (·.result) = results
  hashed : committed.map (·.resultHash) = results.map (·.hash)
  formed : ∀ r ∈ results, r.checkStructure = .ok () ∧ r.checkCapacity limits = .ok ()
  topology : p.committedTopology = .ok results.getLast?
  inFlight : ∀ e ∈ entries.head?, e.state = .prepared → ∃ d,
    p.space.request? e.uuid = .ok (some d) ∧ d.change.apply results.getLast? = .ok d.result

theorem Settled.replays {limits : Limits} {accepted : List Prepare} {p : Participant}
    {h : History} (settled : Settled limits accepted p h) (short : h.length ≤ chainLimit) :
    p.Replays limits h.entries h.committed.reverse (h.committed.reverse.map (·.result)) := by
  have older : ∀ d ∈ h.committed.reverse, d ∈ h := fun d mem =>
    (List.mem_filter.1 (List.mem_reverse.1 mem)).1
  have filtered : h.entries.filter (·.state == .committed) = h.committed.map (·.entry) := by
    rw [History.entries, List.filter_map]
    rfl
  refine ⟨?_, settled.sound.replay, rfl, ?_, ?_, ?_, ?_⟩
  · rw [filtered, ← List.map_reverse, List.forall₂_map_left_iff, List.forall₂_same]
    exact fun d mem => settled.request?_of_mem (older d mem)
  · rw [List.map_map]
    exact List.map_congr_left fun d mem => settled.sound.intact d (older d mem)
  · rw [List.forall_mem_map]
    exact fun d mem => settled.sound.formed d (older d mem)
  · rw [settled.committedTopology_eq, if_pos short, History.topology_eq_getLast?]
  · intro e newest inFlight
    cases h with
    | nil => cases newest
    | cons d below =>
      cases newest
      refine ⟨d, settled.request?_of_mem List.mem_cons_self, ?_⟩
      cases settled.sound with
      | cons _ _ _ _ _ valid =>
        have applied := (Change.validate_eq_ok.1 valid).1
        have open_ : d.state = .prepared := inFlight
        have same : History.committed (d :: below) = History.committed below := by
          rw [History.committed_cons, open_]
          rfl
        rw [same, ← History.topology_eq_getLast?]
        exact applied

/-! ## A node that was activated -/

/-- A new node that was sent the founding of a cluster. -/
def founder : Participant :=
  ((blank "n").handle (.prepare foundingPrepare) ⟨2024, 1, 1, 0, 0, 0, 0⟩).1

theorem lived_founder : Lived ⟨none⟩ [foundingPrepare] founder := by
  have started : Lived ⟨none⟩ [] (blank "n") := .started .memory rfl (start_blank "n")
  exact started.handled (.prepare foundingPrepare) ⟨2024, 1, 1, 0, 0, 0, 0⟩ (by decide)

theorem settled_founder : ∃ d, Settled ⟨none⟩ [foundingPrepare] founder [d] ∧
    d.state = .prepared ∧ d.uuid = foundingCommit.uuid ∧ d.change = founding := by
  obtain ⟨h, settled⟩ := lived_founder.settled
  obtain ⟨d, rfl, inFlight, uuid, change⟩ := settled.eq_singleton rfl
  exact ⟨d, settled, inFlight, uuid, change⟩

/-- A commit that names the request in flight is carried out. -/
theorem Settled.commit_keeps {limits : Limits} {accepted : List Prepare} {p : Participant}
    {d : ChangeDetails} {below : History} (settled : Settled limits accepted p (d :: below))
    (memory : p.store.InMemory) (agree : ∀ l ∈ p.processor.listeners, l.Agrees)
    (inFlight : d.state = .prepared) {m : Close} (same : m.uuid = d.uuid)
    (fence : History.messages (d :: below) = m.context.expected) (now : Timestamp) :
    (p.handle (.commit m) now).1.space.Keeps (d.inState .committed :: below) := by
  obtain ⟨keeps, sound, rfl, -⟩ := id settled
  have closing : (Message.commit m).closing? = some (m.context, d.uuid, .committed) := by
    rw [← same]
    rfl
  have answered := closing_eq_ok keeps sound settled.legible memory agree inFlight closing fence now
  obtain ⟨h, keeps', -, ⟨-, accepts⟩ | ⟨⟨e, refused⟩, -⟩, -⟩ :=
    (handled keeps sound (.commit m) now).history keeps sound
  · obtain ⟨_, _, newest, -, -, -, rfl⟩ := accepts.of_closing closing
    cases newest
    exact keeps'
  · rw [answered] at refused
    cases refused

/-! ## Any node -/

/-- Whatever a node went through, its committed topology is the replay of its committed
changes, as long as its chain is short enough to be read. -/
theorem Lived.committed_replay {limits : Limits} {accepted : List Prepare} {p : Participant}
    (lived : Lived limits accepted p) : ∃ state, p.state = .ok state ∧
      ((∃ entries, p.space.lineage state.latest = .ok entries) ↔ accepted.length ≤ chainLimit) ∧
      ∀ entries, p.space.lineage state.latest = .ok entries →
        ∃ committed results, p.Replays limits entries committed results := by
  obtain ⟨h, settled⟩ := lived.settled
  obtain ⟨state, read, tells⟩ := settled.state_eq_ok
  have lineage := settled.keeps.lineage_eq settled.sound
  rw [← tells.latest] at lineage
  refine ⟨state, read, ?_, fun entries found => ?_⟩
  · rw [lineage, ← settled.length_eq]
    by_cases short : h.length ≤ chainLimit
    · simp [short]
    · simp [short]
  · rw [lineage] at found
    split at found
    · rename_i short
      cases found
      exact ⟨_, _, settled.replays short⟩
    · cases found

/-- The one committed change of a node makes its topology. -/
theorem founding_replays : ∃ p accepted state entries committed,
    Lived ⟨none⟩ accepted p ∧ p.state = .ok state ∧
      p.space.lineage state.latest = .ok entries ∧
      p.Replays ⟨none⟩ entries committed [⟨"c", [⟨"s", [⟨"n", "h", 1, ∅, ∅⟩]⟩], ∅⟩] := by
  obtain ⟨d, settled, inFlight, uuid, change⟩ := settled_founder
  have nobody : founder.processor.listeners = [] := rfl
  have fence : History.messages [d] = foundingCommit.context.expected := by
    rw [History.messages_cons, if_pos inFlight]
    rfl
  have lived :=
    lived_founder.handled (.commit foundingCommit) ⟨2024, 1, 1, 0, 0, 1, 0⟩ (by decide)
  have keeps := settled.commit_keeps ⟨_, rfl⟩ (by simp [nobody]) inFlight uuid.symm fence
    ⟨2024, 1, 1, 0, 0, 1, 0⟩
  generalize (founder.handle (.commit foundingCommit) ⟨2024, 1, 1, 0, 0, 1, 0⟩).1 = p at lived keeps
  have sound : History.Sound ⟨none⟩ [d.inState .committed] := settled.sound.close _
  have created : (d.inState .committed).created.Storable :=
    settled.created d List.mem_cons_self
  obtain ⟨state, read, -, replays⟩ := lived.committed_replay
  have lineage := keeps.lineage_eq sound
  have short : [d.inState .committed].length ≤ chainLimit := show 1 ≤ 1000000 by decide
  rw [← (tells_of_state keeps read).latest, if_pos short] at lineage
  obtain ⟨changes, results, replays⟩ := replays _ lineage
  have stored := replays.stored
  obtain ⟨_, _, asked, rest, rfl⟩ := List.forall₂_cons_left_iff.1
    (show List.Forall₂ _ [(d.inState .committed).entry] changes from stored)
  cases rest
  cases (keeps.request?_of_created sound List.mem_cons_self created).symm.trans asked
  have replayed : Change.replay none [d.change] = .ok results := replays.replay
  rw [change] at replayed
  cases replayed
  exact ⟨p, _, state, _, _, lived, read, lineage, replays⟩

end Participant
end Reconfig
