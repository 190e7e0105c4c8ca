/-
A node over its whole life.

`Participant.Lived` follows a node from a blank store through messages and restarts, with
the prepare messages that it accepted. `Participant.Settled` is what holds all along: the
node keeps a sound history of just these requests and can read all its times, and a log has
one frame for the first start and one for each message that was accepted.
-/
import Reconfig.Proofs.Participant.Answering
import Reconfig.Proofs.Participant.Invariant
import Reconfig.Proofs.Participant.Recounting

namespace Reconfig

/-- The prepare message, if the message was one and was accepted. -/
def Message.accepted? : Message → Answer → Option Prepare
  | .prepare m, .ok () => some m
  | _, _ => none

theorem Message.accepted?_error (m : Message) (r : Rejection) : m.accepted? (.error r) = none := by
  cases m <;> rfl

namespace History

variable {limits : Limits} {h h' : History} {m : Message} {now : Timestamp}

theorem Accepts.requests (accepts : Accepts limits h m now h') :
    h'.map (fun d => (d.uuid, d.change)) =
      (m.accepted? (.ok ())).toList.map (fun m => (m.uuid, m.change)) ++
        h.map fun d => (d.uuid, d.change) := by
  cases accepts with
  | prepare => rfl
  | close closing =>
    cases m with
    | prepare m => cases closing
    | _ => rfl

theorem Accepts.created (accepts : Accepts limits h m now h') (storable : now.Storable)
    (created : ∀ d ∈ h, d.created.Storable) : ∀ d ∈ h', d.created.Storable := by
  cases accepts with
  | prepare => exact List.forall_mem_cons.2 ⟨storable, created⟩
  | close => exact List.forall_mem_cons.2 (List.forall_mem_cons.1 created)

theorem messages_lt (room : h.length ≤ chainLimit + 1) : h.messages < 2 ^ 64 := by
  have := h.messages_le
  have : chainLimit = 1000000 := rfl
  omega

end History

namespace KeySpace
namespace Keeps

variable {space : KeySpace} {h : History} {limits : Limits}

theorem request?_of_created (keeps : space.Keeps h) (sound : History.Sound limits h)
    {d : ChangeDetails} (mem : d ∈ h) (storable : d.created.Storable) :
    space.request? d.uuid = .ok (some d) := by
  rw [keeps.request?_of_mem sound mem, readTimestamp, Timestamp.parseStrict?_storedText storable]
  rfl

/-- With readable times only the length of the chain matters. -/
theorem committedTopology_of_created (keeps : space.Keeps h) (sound : History.Sound limits h)
    (created : ∀ d ∈ h, d.created.Storable) : space.committedTopology h.latest =
      if h.length ≤ chainLimit then .ok h.topology else .error .endlessChain := by
  rw [committedTopology, keeps.lineage_eq sound]
  split
  · rw [Outcome.ok_bind, h.find?_committed]
    cases newest : h.committed.head? with
    | none => simp [History.topology, newest]
    | some d =>
      have mem : d ∈ h := (List.mem_filter.1 (List.mem_of_mem_head? newest)).1
      have asked := keeps.request?_of_created sound mem (created d mem)
      simp [ChangeDetails.entry, asked, History.topology, newest]
  · rfl

end Keeps
end KeySpace

/-! ## Lives -/

namespace Participant

/-- A node in a state that it can come to, and the prepare messages that it has accepted
so far, the newest first. Every start brings the same limits, and the clock shows times that
have a stored form. -/
inductive Lived (limits : Limits) : List Prepare → Participant → Prop
  | started {name : String} {store : Store} {processor : Processor} {p : Participant}
      (blank : store.Blank) (limited : processor.limits = limits)
      (started : start name store processor = .ok p) : Lived limits [] p
  | handled {accepted : List Prepare} {p : Participant} (past : Lived limits accepted p)
      (m : Message) (now : Timestamp) (storable : now.Storable) :
      Lived limits ((m.accepted? (p.handle m now).2).toList ++ accepted) (p.handle m now).1
  | restarted {accepted : List Prepare} {p q : Participant} (past : Lived limits accepted p)
      {name : String} {store : Store} {processor : Processor}
      (reopened : p.store.reopened = .ok store) (limited : processor.limits = limits)
      (started : start name store processor = .ok q) : Lived limits accepted q

/-- What holds of a node all along. -/
structure Settled (limits : Limits) (accepted : List Prepare) (p : Participant) (h : History) :
    Prop where
  keeps : p.space.Keeps h
  sound : History.Sound limits h
  limits : p.processor.limits = limits
  stamp : ∃ t, p.space.lastTimestamp = .ok t
  created : ∀ d ∈ h, d.created.Storable
  room : h.length ≤ chainLimit + 1
  requests : h.map (fun d => (d.uuid, d.change)) = accepted.map fun m => (m.uuid, m.change)
  recounts : p.store.Recounts h

theorem start_eq_ok {name : String} {store : Store} {processor : Processor} {p : Participant}
    (started : start name store processor = .ok p) :
    store.initialized = .ok p.store ∧ p.processor.limits = processor.limits := by
  obtain ⟨written, initialized, resumed⟩ := Outcome.bind_eq_ok.1 started
  obtain ⟨state, -, resumed⟩ := Outcome.bind_eq_ok.1 resumed
  obtain ⟨committed, -, resumed⟩ := Outcome.bind_eq_ok.1 resumed
  cases resumed
  exact ⟨initialized, rfl⟩

namespace Settled

variable {limits : Limits} {accepted : List Prepare} {p q : Participant} {h : History}
  {name : String} {store : Store} {processor : Processor}

theorem of_start (blank : store.Blank) (started : start name store processor = .ok p) :
    Settled processor.limits [] p [] := by
  obtain ⟨keeps, -⟩ := start_keeps blank.space started
  obtain ⟨initialized, limits⟩ := start_eq_ok started
  have unwritten : store.space.isInitialized = false := by
    rw [blank.space]
    rfl
  rw [Store.initialized, unwritten] at initialized
  have space : p.space = NodeState.initialWrites.applyTo ∅ := by
    rw [Participant.space, Store.space_commit initialized, blank.space]
  refine ⟨keeps, .nil, limits, ⟨none, ?_⟩, by simp, Nat.zero_le _, rfl,
    .of_blank blank initialized⟩
  rw [space]
  rfl

theorem handle (settled : Settled limits accepted p h) (m : Message) {now : Timestamp}
    (storable : now.Storable) : ∃ h',
      Settled limits ((m.accepted? (p.handle m now).2).toList ++ accepted) (p.handle m now).1 h' ∧
        ((p.handle m now).2 = .ok () ∧ History.Accepts limits h m now h' ∨
          (∃ r, (p.handle m now).2 = .error r) ∧ h' = h) := by
  obtain ⟨keeps, sound, rfl, stamp, created, room, requests, recounts⟩ := settled
  have handled := handled keeps sound m now
  cases answer : p.handle m now with
  | mk next outcome =>
  rw [answer] at handled
  cases handled with
  | refused e store limits =>
    have same : next.space = p.space := by rw [space, space, store]
    rw [m.accepted?_error]
    exact ⟨h, ⟨same ▸ keeps, sound, limits, same ▸ stamp, created, room, requests,
      store ▸ recounts⟩, .inr ⟨⟨e, rfl⟩, rfl⟩⟩
  | accepted accepts keeps' committed stamp' limits notes room' =>
    have sound' := accepts.sound sound
    have room' : _ ≤ chainLimit + 1 := Nat.le_trans room' (Nat.max_le.2 ⟨room, Nat.le_refl _⟩)
    refine ⟨_, ⟨keeps', sound', limits, ⟨some now, ?_⟩, accepts.created storable created, room', ?_,
      recounts.of_commit accepts notes (notes.stored sound' (History.messages_lt room')) committed⟩,
      .inl ⟨rfl, accepts⟩⟩
    · rw [KeySpace.lastTimestamp, stamp', readOptional, readTimestamp,
        Timestamp.parseStrict?_storedText storable]
      rfl
    · rw [accepts.requests, requests, List.map_append]

theorem initialized (settled : Settled limits accepted p h) :
    p.store.initialized = .ok p.store := by
  have written : p.store.space.isInitialized = true := by
    rw [KeySpace.isInitialized, show p.store.space = p.space from rfl, settled.keeps.text?_mode]
    rfl
  rw [Store.initialized, if_pos written]

theorem store_of_refused (settled : Settled limits accepted p h) {m : Message} {now : Timestamp}
    {r : Rejection} (refused : (p.handle m now).2 = .error r) :
    (p.handle m now).1.store = p.store := by
  have handled := Participant.handled settled.keeps (settled.limits ▸ settled.sound) m now
  rw [refused] at handled
  cases handled with
  | refused _ store => exact store

/-- A restart brings nothing new into the store. -/
theorem store_of_restart (settled : Settled limits accepted p h)
    (reopened : p.store.reopened = .ok store) (started : start name store processor = .ok q) :
    q.store = p.store := by
  obtain rfl := settled.recounts.eq_of_reopened (History.messages_lt settled.room) reopened
  obtain ⟨initialized, -⟩ := start_eq_ok started
  exact Except.ok.inj (initialized.symm.trans settled.initialized)

theorem restart (settled : Settled limits accepted p h) (reopened : p.store.reopened = .ok store)
    (limited : processor.limits = limits) (started : start name store processor = .ok q) :
    Settled limits accepted q h := by
  have same := settled.store_of_restart reopened started
  obtain ⟨-, kept⟩ := start_eq_ok started
  have space : q.space = p.space := by rw [Participant.space, Participant.space, same]
  exact ⟨space ▸ settled.keeps, settled.sound, kept.trans limited, space ▸ settled.stamp,
    settled.created, settled.room, settled.requests, same ▸ settled.recounts⟩

end Settled

theorem Lived.settled {limits : Limits} {accepted : List Prepare} {p : Participant}
    (lived : Lived limits accepted p) : ∃ h, Settled limits accepted p h := by
  induction lived with
  | started blank limited started => exact ⟨[], limited ▸ .of_start blank started⟩
  | handled _ m now storable ih =>
    obtain ⟨h, settled⟩ := ih
    obtain ⟨h', settled, -⟩ := settled.handle m storable
    exact ⟨h', settled⟩
  | restarted _ reopened limited started ih =>
    obtain ⟨h, settled⟩ := ih
    exact ⟨h, settled.restart reopened limited started⟩

namespace Settled

variable {limits : Limits} {accepted : List Prepare} {p : Participant} {h : History}

theorem length_eq (settled : Settled limits accepted p h) : h.length = accepted.length := by
  simpa using congrArg List.length settled.requests

theorem forall_change_iff (settled : Settled limits accepted p h) (P : Change → Prop) :
    (∀ d ∈ h, P d.change) ↔ ∀ m ∈ accepted, P m.change := by
  have kept : (∀ r ∈ h.map fun d => (d.uuid, d.change), P r.2) ↔ ∀ d ∈ h, P d.change :=
    List.forall_mem_map
  rw [← kept, settled.requests, List.forall_mem_map]

/-- A node in the middle of its first change. -/
theorem eq_singleton {m : Prepare} (settled : Settled limits [m] p h)
    (mode : p.space.text? Key.mode = some Mode.prepared.text) :
    ∃ d, h = [d] ∧ d.state = .prepared ∧ d.uuid = m.uuid ∧ d.change = m.change := by
  obtain ⟨d, below, rfl, request, rest⟩ := List.map_eq_cons_iff.1 settled.requests
  obtain rfl := List.map_eq_nil_iff.1 rest
  obtain ⟨uuid, change⟩ := Prod.mk.inj request
  obtain ⟨_, _, same, inFlight⟩ :=
    History.mode_eq_prepared_iff.1 (settled.keeps.mode_text_iff.1 mode)
  cases same
  exact ⟨d, rfl, inFlight, uuid, change⟩

theorem legible (settled : Settled limits accepted p h) : p.space.Legible h :=
  ⟨settled.stamp, fun d newest => (settled.created d (List.mem_of_mem_head? newest)).legible⟩

theorem state_eq_ok (settled : Settled limits accepted p h) :
    ∃ state, p.state = .ok state ∧ state.Tells h := by
  obtain ⟨state, read⟩ := Participant.state_eq_ok settled.keeps settled.legible
  exact ⟨state, read, tells_of_state settled.keeps read⟩

theorem request?_of_mem (settled : Settled limits accepted p h) {d : ChangeDetails}
    (mem : d ∈ h) : p.space.request? d.uuid = .ok (some d) :=
  settled.keeps.request?_of_created settled.sound mem (settled.created d mem)

/-- The requests in the store are those of the history. -/
theorem request?_eq_some (settled : Settled limits accepted p h) {uuid : Uuid}
    {d : ChangeDetails} : p.space.request? uuid = .ok (some d) ↔ d ∈ h ∧ d.uuid = uuid := by
  constructor
  · intro stored
    by_cases known : ∃ e ∈ h, e.uuid = uuid
    · obtain ⟨e, mem, rfl⟩ := known
      rw [settled.request?_of_mem mem] at stored
      cases stored
      exact ⟨mem, rfl⟩
    · rw [settled.keeps.request?_of_absent fun e mem same => known ⟨e, mem, same⟩] at stored
      cases stored
  · rintro ⟨mem, rfl⟩
    exact settled.request?_of_mem mem

theorem committedTopology_eq (settled : Settled limits accepted p h) : p.committedTopology =
    if h.length ≤ chainLimit then .ok h.topology else .error (.corrupted "change chain loops") := by
  obtain ⟨state, read, tells⟩ := settled.state_eq_ok
  rw [committedTopology, read, Outcome.ok_bind, tells.latest,
    settled.keeps.committedTopology_of_created settled.sound settled.created]
  split <;> rfl

theorem discover_eq_ok (settled : Settled limits accepted p h) (short : h.length ≤ chainLimit) :
    ∃ s, p.discover = .ok s :=
  (discover_eq_ok_iff settled.keeps (settled.limits ▸ settled.sound)).2 ⟨settled.legible, short⟩

theorem discover_eq_error (settled : Settled limits accepted p h) (long : chainLimit < h.length) :
    p.discover = .error (.corrupted "change chain loops") :=
  discover_of_long settled.keeps (settled.limits ▸ settled.sound) settled.legible long

theorem upcomingTopology_nil (settled : Settled limits accepted p []) :
    p.upcomingTopology = .ok none := by
  obtain ⟨state, read, tells⟩ := settled.state_eq_ok
  rw [upcomingTopology, read, Outcome.ok_bind, tells.latest]
  rfl

/-- The newest request says what is to come, unless it was rolled back. -/
theorem upcomingTopology_cons {d : ChangeDetails} {below : History}
    (settled : Settled limits accepted p (d :: below)) : p.upcomingTopology =
      if d.state = .rolledBack then p.committedTopology else .ok (some d.result) := by
  obtain ⟨state, read, tells⟩ := settled.state_eq_ok
  have asked := settled.request?_of_mem List.mem_cons_self
  rw [upcomingTopology, committedTopology, read, Outcome.ok_bind, Outcome.ok_bind, tells.latest,
    History.latest_cons, KeySpace.upcomingTopology, asked, Outcome.ok_bind]
  dsimp only
  split <;> rfl

theorem upcomingTopology_eq_ok (settled : Settled limits accepted p h)
    (short : h.length ≤ chainLimit) : ∃ upcoming, p.upcomingTopology = .ok upcoming := by
  cases h with
  | nil => exact ⟨none, settled.upcomingTopology_nil⟩
  | cons d below =>
    rw [settled.upcomingTopology_cons, settled.committedTopology_eq, if_pos short]
    split
    · exact ⟨_, rfl⟩
    · exact ⟨_, rfl⟩

/-- A node starts over the store of another one if the chain there is not too long. -/
theorem start_eq (settled : Settled limits accepted p h) (name : String) (processor : Processor) :
    start name p.store processor =
      if h.length ≤ chainLimit then .ok ⟨name, p.store, processor.load h.topology⟩
      else .error (.corrupted "change chain loops") := by
  obtain ⟨state, read, tells⟩ := settled.state_eq_ok
  have nodeState : p.store.space.nodeState.mapError StateFault.toError = .ok state := read
  have topology : p.store.space.committedTopology h.latest = _ :=
    settled.keeps.committedTopology_of_created settled.sound settled.created
  rw [start, settled.initialized, Outcome.ok_bind, resume, nodeState, Outcome.ok_bind,
    tells.latest, topology]
  split <;> rfl

end Settled

end Participant
end Reconfig
