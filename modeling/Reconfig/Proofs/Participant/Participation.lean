/-
One node in a change.

A node that takes part in a change has one more request than before. It still holds the
request open, or it has closed it, and what the node shows afterwards follows from that.
A call that is lost or refused leaves the node with the history that it had.
-/
import Reconfig.Proofs.Participant.Refusal

namespace Reconfig

theorem ChangeDetails.inState_self (d : ChangeDetails) : d.inState d.state = d := rfl

namespace Participant

variable {p q : Participant} {h : History} {d : ChangeDetails} {now : Timestamp}

/-- The node is in a state that it can come to, and this is its history. -/
def Stands (p : Participant) (h : History) : Prop := ∃ limits accepted, Settled limits accepted p h

/-- What a call leaves of a node, and whether the caller is told that the node did what it was
asked for. The call may be lost on its way. -/
inductive Receives (p : Participant) (m : Message) (now : Timestamp) : Participant → Bool → Prop
  | lost : Receives p m now p false
  | handled : Receives p m now (p.handle m now).1 (p.handle m now).2.isOk

/-- The node shows a snapshot, and its history has room for one more request. -/
def HasRoom (p : Participant) : Prop := ∃ s, p.discover = .ok s ∧ s.lineage.length < chainLimit

/-- How the node `q` differs from the node `p` that it was before a change, idle and at the
given version. It now holds the change in the given state. -/
structure TookPart (p q : Participant) (uuid : Uuid) (version : Nat) (state : ChangeState) :
    Prop where
  protocol : ∃ before after, p.state = .ok before ∧ q.state = .ok after ∧
    before.mode = .accepting ∧ before.currentVersion = version ∧
    after.mode = (if state = .prepared then .prepared else .accepting) ∧
    after.currentVersion = (if state = .committed then version + 1 else version) ∧
    after.latest = some uuid ∧ after.count = before.count + (if state = .prepared then 1 else 2)
  recorded : q.space.stateOf? uuid = some state
  committedChain : ∀ s t, p.discover = .ok s → q.discover = .ok t →
    t.committedChain = if state = .committed then uuid :: s.committedChain else s.committedChain
  shown : (∃ t, q.discover = .ok t) ↔ p.HasRoom

/-- The node `q` shows the same topologies as before, the announced one apart. -/
structure KeptTopology (p q : Participant) : Prop where
  committed : p.HasRoom → q.committedTopology = p.committedTopology
  runtime : q.runtimeTopology = p.runtimeTopology

/-- The change was applied to the committed topology of the node `p`, and the result is all
that the node `q` shows. -/
structure TookOver (p q : Participant) (change : Change) : Prop where
  applied : ∃ current result, p.committedTopology = .ok current ∧
    change.apply current = .ok result ∧ q.runtimeTopology = some result ∧
    q.upcomingTopology = .ok (some result) ∧
    (p.HasRoom → q.committedTopology = .ok (some result))

/-- The node `q` stores and shows what the node `p` did, and has the same topology in effect, at
least if the store of the node keeps its values in memory. -/
structure Unchanged (p q : Participant) : Prop where
  store : q.store = p.store
  discover : q.discover = p.discover
  committed : q.committedTopology = p.committedTopology
  upcoming : q.upcomingTopology = p.upcomingTopology
  runtime : p.store.InMemory → q.runtimeTopology = p.runtimeTopology

/-- The node `q` has closed the change that the node `p` held, and no other one. -/
structure Resolved (p q : Participant) (uuid : Uuid) (target : ChangeState) : Prop where
  before : p.space.stateOf? uuid = some .prepared
  after : q.space.stateOf? uuid = some target
  others : ∀ other, other ≠ uuid → ∀ state,
    q.space.stateOf? other = some state ↔ p.space.stateOf? other = some state

/-- The node shows that it accepts changes, and holds none of its change requests open. -/
structure AtRest (p : Participant) : Prop where
  shown : ∃ s, p.discover = .ok s ∧ s.mode = .accepting ∧ ∀ e ∈ s.lineage, e.state ≠ .prepared
  closed : ∀ uuid, p.space.stateOf? uuid ≠ some .prepared

theorem Lived.stands {limits : Limits} {accepted : List Prepare} (lived : Lived limits accepted p) :
    ∃ h, p.Stands h := by
  obtain ⟨h, settled⟩ := lived.settled
  exact ⟨h, limits, accepted, settled⟩

namespace Stands

theorem sound (stands : p.Stands h) : ∃ limits, History.Sound limits h := by
  obtain ⟨limits, _, settled⟩ := stands
  exact ⟨limits, settled.sound⟩

theorem shows (stands : p.Stands h) {s : Snapshot} (found : p.discover = .ok s) : s.Shows h := by
  obtain ⟨limits, _, settled⟩ := stands
  exact shows_of_discover settled.keeps (settled.limits ▸ settled.sound) found

theorem shown_iff (stands : p.Stands h) : (∃ s, p.discover = .ok s) ↔ h.length ≤ chainLimit := by
  obtain ⟨limits, _, settled⟩ := stands
  rw [discover_eq_ok_iff settled.keeps (settled.limits ▸ settled.sound)]
  exact ⟨fun both => both.2, fun short => ⟨settled.legible, short⟩⟩

theorem hasRoom_iff (stands : p.Stands h) : p.HasRoom ↔ h.length < chainLimit := by
  constructor
  · rintro ⟨s, found, room⟩
    rwa [(stands.shows found).lineage, History.entries, List.length_map] at room
  · intro room
    obtain ⟨s, found⟩ := stands.shown_iff.2 (Nat.le_of_lt room)
    refine ⟨s, found, ?_⟩
    rwa [(stands.shows found).lineage, History.entries, List.length_map]

/-! ## What a node shows of its history -/

theorem stateOf?_eq_some (stands : p.Stands h) {uuid : Uuid} {state : ChangeState} :
    p.space.stateOf? uuid = some state ↔ ∃ d ∈ h, d.uuid = uuid ∧ d.state = state := by
  obtain ⟨_, _, settled⟩ := stands
  exact settled.keeps.stateOf?_eq_some

/-- What the node shows of a change is what it stores of it. -/
theorem shown_stateOf? (stands : p.Stands h) {s : Snapshot} (found : p.discover = .ok s)
    {uuid : Uuid} {state : ChangeState} :
    s.stateOf? uuid = some state ↔ p.space.stateOf? uuid = some state := by
  obtain ⟨limits, sound⟩ := stands.sound
  rw [stands.stateOf?_eq_some, (stands.shows found).stateOf?, Option.map_eq_some_iff]
  constructor
  · rintro ⟨d, newest, state⟩
    exact ⟨d, List.mem_of_find?_eq_some newest, by simpa using List.find?_some newest, state⟩
  · rintro ⟨d, mem, rfl, state⟩
    exact ⟨d, History.find?_uuid sound.uuids_nodup mem, state⟩

theorem atRest (stands : p.Stands h) (idle : h.mode = .accepting)
    (short : h.length ≤ chainLimit) : p.AtRest := by
  obtain ⟨limits, sound⟩ := stands.sound
  have closed := sound.closed_of_accepting idle
  obtain ⟨s, found⟩ := stands.shown_iff.2 short
  have shows := stands.shows found
  refine ⟨⟨s, found, shows.mode.trans idle, fun e listed => ?_⟩, fun uuid stored => ?_⟩
  · rw [shows.lineage, History.entries] at listed
    obtain ⟨d, mem, rfl⟩ := List.mem_map.1 listed
    exact closed d mem
  · obtain ⟨d, mem, -, inFlight⟩ := stands.stateOf?_eq_some.1 stored
    exact closed d mem inFlight

/-- A node that has closed the request in flight. -/
theorem resolved {target : ChangeState} (before : p.Stands (d :: h))
    (after : q.Stands (d.inState target :: h)) (inFlight : d.state = .prepared) :
    p.Resolved q d.uuid target where
  before := before.stateOf?_eq_some.2 ⟨d, List.mem_cons_self, rfl, inFlight⟩
  after := after.stateOf?_eq_some.2 ⟨d.inState target, List.mem_cons_self, rfl, rfl⟩
  others other different state := by
    have apart : d.uuid ≠ other := fun same => different same.symm
    have apart' : (d.inState target).uuid ≠ other := apart
    rw [before.stateOf?_eq_some, after.stateOf?_eq_some, List.exists_mem_cons_iff,
      List.exists_mem_cons_iff]
    simp only [apart, apart', false_and, false_or]

theorem tookPart (before : p.Stands h) (after : q.Stands (d :: h)) (idle : h.mode = .accepting) :
    p.TookPart q d.uuid h.version d.state := by
  have room := before.hasRoom_iff
  have shown := after.shown_iff
  obtain ⟨_, _, settled⟩ := id before
  obtain ⟨_, _, settled'⟩ := id after
  obtain ⟨s, read, tells⟩ := settled.state_eq_ok
  obtain ⟨t, read', tells'⟩ := settled'.state_eq_ok
  refine ⟨⟨s, t, read, read', tells.mode.trans idle, tells.currentVersion, tells'.mode, ?_,
    tells'.latest, ?_⟩, ?_, fun s t found found' => ?_, ?_⟩
  · rw [tells'.currentVersion, History.version_cons]
    split <;> rfl
  · rw [tells'.count, tells.count, History.messages_cons, Nat.add_comm]
  · exact settled'.keeps.stateOf?_eq_some.2 ⟨d, List.mem_cons_self, rfl, rfl⟩
  · rw [(before.shows found).committedChain, (after.shows found').committedChain,
      History.committed_cons]
    split <;> rfl
  · rw [shown, room, List.length_cons]
    rfl

theorem keptTopology (before : p.Stands h) (after : q.Stands (d :: h))
    (uncommitted : d.state ≠ .committed) (runtime : q.runtimeTopology = p.runtimeTopology) :
    p.KeptTopology q := by
  refine ⟨fun room => ?_, runtime⟩
  rw [before.hasRoom_iff] at room
  obtain ⟨_, _, settled⟩ := before
  obtain ⟨_, _, settled'⟩ := after
  have same : History.topology (d :: h) = h.topology := by
    rw [History.topology_cons, if_neg uncommitted]
  rw [settled.committedTopology_eq, settled'.committedTopology_eq, if_pos (Nat.le_of_lt room),
    if_pos (show (d :: h).length ≤ chainLimit from room), same]

theorem tookOver (before : p.Stands h) (after : q.Stands (d :: h)) (short : h.length ≤ chainLimit)
    (committed : d.state = .committed) (runtime : q.runtimeTopology = some d.result) :
    p.TookOver q d.change := by
  have room := before.hasRoom_iff
  obtain ⟨_, _, settled⟩ := before
  obtain ⟨_, _, settled'⟩ := after
  have applied : d.change.apply h.topology = .ok d.result := by
    cases settled'.sound with
    | cons _ _ _ _ _ valid => exact (Change.validate_eq_ok.1 valid).1
  have newest : History.topology (d :: h) = some d.result := by
    rw [History.topology_cons, if_pos committed]
  refine ⟨h.topology, d.result, ?_, applied, runtime, ?_, fun roomy => ?_⟩
  · rw [settled.committedTopology_eq, if_pos short]
  · rw [settled'.upcomingTopology_cons, if_neg (by simp [committed])]
  · rw [settled'.committedTopology_eq, if_pos (show (d :: h).length ≤ chainLimit from room.1 roomy),
      newest]

end Stands

/-! ## What a call leaves of a node -/

theorem Stands.handle (stands : p.Stands h) (m : Message) (storable : now.Storable) : ∃ h',
    (p.handle m now).1.Stands h' ∧
      ((p.handle m now).2 = .ok () ∧ History.Accepts p.processor.limits h m now h' ∨
        (∃ r, (p.handle m now).2 = .error r) ∧ h' = h) := by
  obtain ⟨limits, accepted, settled⟩ := stands
  obtain rfl := settled.limits
  obtain ⟨h', settled', taken⟩ := settled.handle m storable
  exact ⟨h', ⟨_, _, settled'⟩, taken⟩

theorem Stands.inMemory_handle (stands : p.Stands h) (m : Message) (now : Timestamp)
    (memory : p.store.InMemory) : (p.handle m now).1.store.InMemory := by
  obtain ⟨_, _, settled⟩ := stands
  have sound := settled.limits ▸ settled.sound
  obtain ⟨_, -, -, -, kept, -⟩ := (handled settled.keeps sound m now).history settled.keeps sound
  exact kept memory

/-- A node that refuses to prepare a change is left as it was. -/
theorem handle_prepare_refused {m : Prepare} {r : Rejection}
    (refused : (p.handle (.prepare m) now).2 = .error r) : (p.handle (.prepare m) now).1 = p := by
  unfold Participant.handle at refused ⊢
  split
  · rfl
  · rename_i state read
    simp only [read, attempt, prepare] at refused ⊢
    split
    · rfl
    · rename_i result passed
      split
      · rename_i store committed
        simp only [passed, committed] at refused
        cases refused
      · rfl

namespace Receives

variable {m : Message} {context : Context} {closing : Closing} {answered : Bool}

theorem inMemory (received : p.Receives m now q answered) (stands : p.Stands h)
    (memory : p.store.InMemory) : q.store.InMemory := by
  cases received with
  | lost => exact memory
  | handled => exact stands.inMemory_handle m now memory

theorem prepare {m : Prepare} (received : p.Receives (.prepare m) now q true)
    (stands : p.Stands h) (storable : now.Storable) : ∃ d, q.Stands (d :: h) ∧
      h.mode = .accepting ∧ d.uuid = m.uuid ∧ d.state = .prepared ∧ d.change = m.change ∧
      q.runtimeTopology = p.runtimeTopology := by
  generalize reply : true = answered at received
  cases received with
  | lost => cases reply
  | handled =>
    have runtime := congrArg Processor.runtime (p.processor_prepare m now)
    obtain ⟨h', stands', ⟨-, accepts⟩ | ⟨⟨r, refused⟩, -⟩⟩ := stands.handle (.prepare m) storable
    · obtain ⟨result, -, idle, -, -, -, rfl⟩ := accepts.of_prepare
      exact ⟨_, stands', idle, rfl, rfl, rfl, runtime⟩
    · rw [refused] at reply
      cases reply

theorem prepare_refused {m : Prepare} (received : p.Receives (.prepare m) now q false) : q = p := by
  generalize reply : false = answered at received
  cases received with
  | lost => rfl
  | handled =>
    cases answer : (p.handle (.prepare m) now).2 with
    | ok =>
      rw [answer] at reply
      cases reply
    | error r => exact handle_prepare_refused answer

/-- A node that is to close the request in flight does so or holds it open. -/
theorem close (received : p.Receives m now q answered) (stands : p.Stands (d :: h))
    (inFlight : d.state = .prepared) (closes : m.closes? = some (context, d.uuid, closing))
    (terminal : closing.target ≠ .prepared) (storable : now.Storable) :
    q.Stands (d.inState (if answered then closing.target else .prepared) :: h) ∧
      (answered = true → q.runtimeTopology =
        if closing.target = .committed then some d.result else p.runtimeTopology) ∧
      (answered = false → p.store.InMemory ∨ closing.target ≠ .committed →
        q.runtimeTopology = p.runtimeTopology) := by
  have open_ : d.inState .prepared = d := by
    rw [← inFlight, d.inState_self]
  cases received with
  | lost =>
    rw [if_neg Bool.false_ne_true, open_]
    exact ⟨stands, nofun, fun _ _ => rfl⟩
  | handled =>
    obtain ⟨_, _, settled⟩ := id stands
    have closing? : m.closing? = some (context, d.uuid, closing.target) :=
      Message.closing?_of_closes? closes terminal
    obtain ⟨h', stands', ⟨accepted, accepts⟩ | ⟨⟨r, refused⟩, rfl⟩⟩ := stands.handle m storable
    · obtain ⟨_, _, newest, -, -, fence, rfl⟩ := accepts.of_closing closing?
      cases newest
      have runtime := settled.runtime_of_closed inFlight closes terminal fence
        (Prod.ext rfl accepted)
      rw [accepted]
      exact ⟨stands', fun _ => runtime, nofun⟩
    · rw [refused]
      refine ⟨?_, nofun, fun _ safe => ?_⟩
      · rw [if_neg (show ¬ (Except.error r : Answer).isOk = true from Bool.false_ne_true), open_]
        exact stands'
      · refine settled.runtime_of_refused (Prod.ext rfl refused) fun e overflows => ?_
        rcases safe with memory | uncommitted
        · exact overflows.not_inMemory memory
        · obtain ⟨_, _, _, _, -, names, committed, -⟩ := overflows.writes
          simp only [closes, Option.some.injEq, Prod.mk.injEq] at names
          exact uncommitted (names.2.2 ▸ committed)

theorem store_of_refused (received : p.Receives m now q false) (stands : p.Stands h) :
    q.store = p.store := by
  generalize reply : false = answered at received
  cases received with
  | lost => rfl
  | handled =>
    obtain ⟨_, _, settled⟩ := stands
    cases answer : (p.handle m now).2 with
    | ok =>
      rw [answer] at reply
      cases reply
    | error r => exact settled.store_of_refused answer

/-- A node that does not close the request in flight is unchanged. -/
theorem unchanged (received : p.Receives m now q false) (stands : p.Stands (d :: h))
    (inFlight : d.state = .prepared) (closes : m.closes? = some (context, d.uuid, closing))
    (terminal : closing.target ≠ .prepared) (storable : now.Storable) : p.Unchanged q := by
  have store := received.store_of_refused stands
  obtain ⟨discover, committed, upcoming⟩ := queries_of_store store
  obtain ⟨-, -, runtime⟩ := received.close stands inFlight closes terminal storable
  exact ⟨store, discover, committed, upcoming, fun memory => runtime rfl (.inl memory)⟩

end Receives

/-- The node `r` is what became of the node `p` with the history `h` after it had prepared the
change, and was told to close it. -/
structure Follows (p r : Participant) (h : History) (uuid : Uuid) (change : Change)
    (closing : Closing) (answered : Bool) (d : ChangeDetails) : Prop where
  stands : r.Stands (d :: h)
  same : d.uuid = uuid
  state : d.state = if answered then closing.target else .prepared
  tookPart : p.TookPart r uuid h.version d.state
  kept : d.state ≠ .committed → p.store.InMemory ∨ closing.target ≠ .committed →
    p.KeptTopology r
  tookOver : d.state = .committed → p.TookOver r change

theorem Stands.follows {r : Participant} (stands : p.Stands h) (short : h.length ≤ chainLimit)
    {m : Prepare} {later : Message} {context : Context} {closing : Closing} {answered : Bool}
    {afterwards : Timestamp} (prepared : p.Receives (.prepare m) now q true)
    (closed : q.Receives later afterwards r answered)
    (closes : later.closes? = some (context, m.uuid, closing))
    (terminal : closing.target ≠ .prepared) (storable : now.Storable)
    (storable' : afterwards.Storable) :
    ∃ d, p.Follows r h m.uuid m.change closing answered d := by
  obtain ⟨d, between, idle, uuid, inFlight, change, untouched⟩ := prepared.prepare stands storable
  rw [← uuid] at closes
  obtain ⟨after, done, undone⟩ := closed.close between inFlight closes terminal storable'
  rw [← uuid, ← change]
  refine ⟨_, after, rfl, rfl, stands.tookPart after idle, fun uncommitted safe => ?_,
    fun committed => ?_⟩
  · refine stands.keptTopology after uncommitted ?_
    cases answered with
    | true => exact ((done rfl).trans (if_neg uncommitted)).trans untouched
    | false => exact (undone rfl (safe.imp (prepared.inMemory stands) id)).trans untouched
  · cases answered with
    | true =>
      have taken : p.TookOver r (d.inState closing.target).change :=
        stands.tookOver after short committed ((done rfl).trans (if_pos committed))
      exact taken
    | false => cases committed

end Participant
end Reconfig
