/-
When a node answers, and what its answers show.

A snapshot shows the history of the node. A node that can read the times it has
stored gives a snapshot, and closes the request in flight when it is forced to.
-/
import Reconfig.Proofs.Participant.Handling
import Reconfig.Proofs.Time.StoredText

namespace Reconfig

/-- The time can be read back from its stored form. -/
def Timestamp.Legible (t : Timestamp) : Prop := ∃ t', readTimestamp t.storedText = .ok t'

theorem Timestamp.Storable.legible {t : Timestamp} (storable : t.Storable) : t.Legible :=
  ⟨t, by rw [readTimestamp, parseStrict?_storedText storable]⟩

/-- What the snapshot says is so for the history. -/
structure Snapshot.Shows (s : Snapshot) (h : History) : Prop where
  mode : s.mode = h.mode
  count : s.count = h.messages
  currentVersion : s.currentVersion = h.version
  latest : s.latestUuid = h.latest
  lineage : s.lineage = h.entries

namespace Snapshot.Shows

variable {s : Snapshot} {h : History} {limits : Limits}

theorem committedChain (shows : s.Shows h) :
    s.committedChain = h.committed.map (·.uuid) := by
  rw [Snapshot.committedChain, shows.lineage, History.entries, List.filter_map, List.map_map,
    History.committed]
  rfl

theorem committedHead (shows : s.Shows h) : s.committedHead = h.head := by
  rw [Snapshot.committedHead, shows.committedChain, List.head?_map, History.head]

theorem stateOf? (shows : s.Shows h) (uuid : Uuid) :
    s.stateOf? uuid = (h.find? (·.uuid == uuid)).map (·.state) := by
  rw [Snapshot.stateOf?, shows.lineage, History.entries, List.find?_map, Option.map_map]
  rfl

end Snapshot.Shows

/-- A node with this key space can read the times that it is asked for. -/
structure KeySpace.Legible (space : KeySpace) (h : History) : Prop where
  lastTimestamp : ∃ t, space.lastTimestamp = .ok t
  created : ∀ d ∈ h.head?, d.created.Legible

theorem History.Accepts.legible {limits : Limits} {h h' : History} {m : Message}
    {now : Timestamp} {space : KeySpace} (accepts : Accepts limits h m now h')
    (stamp : space.text? Key.lastTimestamp = some now.storedText) (readable : now.Legible)
    (created : ∀ d ∈ h.head?, d.created.Legible) : space.Legible h' := by
  refine ⟨?_, fun d newest => ?_⟩
  · obtain ⟨t, read⟩ := readable
    exact ⟨some t, by rw [KeySpace.lastTimestamp, stamp, readOptional, read]; rfl⟩
  · cases accepts with
    | prepare =>
      cases newest
      exact readable
    | @close e =>
      cases newest
      exact created e rfl

namespace Participant

variable {p next : Participant} {h : History}

theorem state_eq_ok (keeps : p.space.Keeps h) (legible : p.space.Legible h) :
    ∃ state, p.state = .ok state := by
  obtain ⟨t, timed⟩ := legible.lastTimestamp
  have read := keeps.nodeState_eq
  rw [timed, Outcome.map_ok] at read
  exact ⟨_, Outcome.mapError_eq_ok.2 read⟩

theorem discover_of_state (keeps : p.space.Keeps h)
    (sound : History.Sound p.processor.limits h) {state : NodeState} (read : p.state = .ok state) :
    p.discover =
      match h with
      | [] => .ok ⟨state.mode, state.count, state.lastHost, state.lastUser, state.lastTimestamp,
          state.currentVersion, state.highestVersion, none, []⟩
      | d :: _ =>
        (readTimestamp d.created.storedText).mapError StateFault.toError >>= fun created =>
          if h.length ≤ chainLimit then
            .ok ⟨state.mode, state.count, state.lastHost, state.lastUser, state.lastTimestamp,
              state.currentVersion, state.highestVersion, some { d with created }, h.entries⟩
          else .error StateFault.endlessChain.toError := by
  have tells := tells_of_state keeps read
  have lineage := keeps.lineage_eq sound
  cases h with
  | nil =>
    simp only [discover, read, Outcome.ok_bind, tells.latest, lineage]
    rfl
  | cons d below =>
    rw [History.latest_cons] at lineage
    simp only [discover, read, Outcome.ok_bind, tells.latest, lineage, History.latest_cons,
      keeps.request?_of_mem sound List.mem_cons_self]
    cases readTimestamp d.created.storedText with
    | error fault => rfl
    | ok created =>
      simp only [Outcome.map_ok, Outcome.mapError_ok, Outcome.ok_bind]
      split <;> rfl

theorem shows_of_discover (keeps : p.space.Keeps h)
    (sound : History.Sound p.processor.limits h) {s : Snapshot} (found : p.discover = .ok s) :
    s.Shows h := by
  obtain ⟨state, read, -⟩ := Outcome.bind_eq_ok.1 found
  have tells := tells_of_state keeps read
  rw [discover_of_state keeps sound read] at found
  cases h with
  | nil =>
    cases found
    exact ⟨tells.mode, tells.count, tells.currentVersion, rfl, rfl⟩
  | cons d below =>
    obtain ⟨created, -, found⟩ := Outcome.bind_eq_ok.1 found
    split at found
    · cases found
      exact ⟨tells.mode, tells.count, tells.currentVersion, rfl, rfl⟩
    · cases found

/-- A node gives a snapshot if it can read its times and its history is no longer
than a chain may be. -/
theorem discover_eq_ok_iff (keeps : p.space.Keeps h)
    (sound : History.Sound p.processor.limits h) :
    (∃ s, p.discover = .ok s) ↔ p.space.Legible h ∧ h.length ≤ chainLimit := by
  constructor
  · rintro ⟨s, found⟩
    obtain ⟨state, read, -⟩ := Outcome.bind_eq_ok.1 found
    rw [discover_of_state keeps sound read] at found
    have lastTimestamp : ∃ t, p.space.lastTimestamp = .ok t := by
      rw [Participant.state, keeps.nodeState_eq, Outcome.mapError_eq_ok, Outcome.map_eq_ok] at read
      obtain ⟨t, timed, -⟩ := read
      exact ⟨t, timed⟩
    cases h with
    | nil => exact ⟨⟨lastTimestamp, by simp⟩, Nat.zero_le _⟩
    | cons d below =>
      obtain ⟨created, timed, found⟩ := Outcome.bind_eq_ok.1 found
      split at found
      · rename_i short
        refine ⟨⟨lastTimestamp, fun e newest => ?_⟩, short⟩
        cases newest
        exact ⟨created, Outcome.mapError_eq_ok.1 timed⟩
      · cases found
  · rintro ⟨legible, short⟩
    obtain ⟨state, read⟩ := state_eq_ok keeps legible
    rw [discover_of_state keeps sound read]
    cases h with
    | nil => exact ⟨_, rfl⟩
    | cons d below =>
      obtain ⟨created, timed⟩ := legible.created d rfl
      simp only [timed, Outcome.mapError_ok, Outcome.ok_bind, if_pos short]
      exact ⟨_, rfl⟩

/-- A node whose history is longer says that its chain has no end. -/
theorem discover_of_long (keeps : p.space.Keeps h)
    (sound : History.Sound p.processor.limits h) (legible : p.space.Legible h)
    (long : chainLimit < h.length) : p.discover = .error (.corrupted "change chain loops") := by
  obtain ⟨state, read⟩ := state_eq_ok keeps legible
  rw [discover_of_state keeps sound read]
  cases h with
  | nil => cases long
  | cons d below =>
    obtain ⟨created, timed⟩ := legible.created d rfl
    simp only [timed, Outcome.mapError_ok, Outcome.ok_bind, if_neg (Nat.not_le.2 long)]
    rfl

end Participant

/-! ## Messages that a node cannot refuse -/

/-- The listener agrees to whatever it is asked from now on. -/
def Listener.Agrees (l : Listener) : Prop :=
  ∀ n, l.asked ≤ n → ∀ change result, l.answer n change result = .ok ()

theorem Listener.askAll_eq_ok (change : Change) (result : Cluster) {listeners : List Listener}
    (agree : ∀ l ∈ listeners, l.Agrees) : (askAll change result listeners).2 = .ok () := by
  induction listeners with
  | nil => rfl
  | cons l rest ih =>
    have first := agree l List.mem_cons_self l.asked (Nat.le_refl _) change result
    have others := ih fun other mem => agree other (List.mem_cons_of_mem _ mem)
    simp only [askAll, ask, first]
    exact others

theorem Processor.apply_eq_ok {processor : Processor} (change : Change) (result : Cluster)
    (agree : ∀ l ∈ processor.listeners, l.Agrees) : (processor.apply change result).2 = .ok () := by
  have asked := Listener.askAll_eq_ok change result agree
  unfold apply
  split
  · rfl
  · split
    · rfl
    · rename_i refused
      rw [refused] at asked
      cases asked

/-- The store keeps its values in memory, where every write succeeds. -/
def Store.InMemory (s : Store) : Prop := ∃ space, s = .memory space

theorem Store.InMemory.of_commit {s t : Store} {changes : ChangeSet} (memory : s.InMemory)
    (committed : s.commit changes = .ok t) : t.InMemory := by
  obtain ⟨space, rfl⟩ := memory
  cases committed
  exact ⟨_, rfl⟩

namespace Participant

variable {p next : Participant} {h : History}

theorem close_eq_ok {d details : ChangeDetails} (keeps : p.space.Keeps h) (mem : d ∈ h)
    (asked : p.space.request? d.uuid = .ok (some details)) (memory : p.store.InMemory)
    (agree : ∀ l ∈ p.processor.listeners, l.Agrees) (state : NodeState) (context : Context)
    (closing : Closing) (now : Timestamp) :
    (p.close state context d.uuid closing now).2 = .ok () := by
  obtain ⟨space, memory⟩ := memory
  have effect : (p.takeEffect details closing).2 = .ok () := by
    unfold takeEffect
    split
    · exact Processor.apply_eq_ok _ _ agree
    · rfl
  rw [close_eq keeps mem asked]
  cases taken : p.takeEffect details closing with
  | mk q outcome =>
    rw [taken] at effect
    cases effect
    simp only [(takeEffect_keeps taken).1, memory, Store.commit]

/-- A message that knows the state of the node closes the request in flight. -/
theorem closing_eq_ok {d : ChangeDetails} {below : History} (keeps : p.space.Keeps (d :: below))
    (sound : History.Sound p.processor.limits (d :: below)) (legible : p.space.Legible (d :: below))
    (memory : p.store.InMemory) (agree : ∀ l ∈ p.processor.listeners, l.Agrees)
    (inFlight : d.state = .prepared) {m : Message} {context : Context} {target : ChangeState}
    (closing : m.closing? = some (context, d.uuid, target))
    (fence : History.messages (d :: below) = context.expected) (now : Timestamp) :
    (p.handle m now).2 = .ok () := by
  obtain ⟨state, read⟩ := state_eq_ok keeps legible
  have tells := tells_of_state keeps read
  obtain ⟨created, timed⟩ := legible.created d rfl
  have asked : p.space.request? d.uuid = .ok (some { d with created }) := by
    rw [keeps.request?_of_mem sound List.mem_cons_self, timed]
    rfl
  have terminal := Message.target_ne_prepared closing
  obtain ⟨kind, closes, rfl⟩ := Message.closes?_of_closing? closing
  have attempted := attempt_eq_close tells inFlight asked inFlight closes terminal
    (tells.count.trans fence) now
  have closed := close_eq_ok keeps List.mem_cons_self asked memory agree state context kind now
  simp only [handle, read, attempted, closed, Outcome.mapError_ok]

theorem Handled.history {ε : Type} {m : Message} {now : Timestamp} {answer : Except ε Unit}
    (handled : Handled p h m now next answer) (keeps : p.space.Keeps h)
    (sound : History.Sound p.processor.limits h) :
    ∃ h', next.space.Keeps h' ∧ History.Sound next.processor.limits h' ∧
      (answer = .ok () ∧ History.Accepts p.processor.limits h m now h' ∨
        (∃ e, answer = .error e) ∧ h' = h) ∧
      (p.store.InMemory → next.store.InMemory) ∧
      (now.Legible → p.space.Legible h → next.space.Legible h') := by
  cases handled with
  | refused e store limits =>
    have same : next.space = p.space := by rw [space, space, store]
    refine ⟨h, ?_, limits ▸ sound, .inr ⟨⟨e, rfl⟩, rfl⟩, ?_, ?_⟩
    · rwa [same]
    · rw [store]
      exact id
    · rw [same]
      exact fun _ => id
  | accepted accepts keeps store stamp limits =>
    exact ⟨_, keeps, limits ▸ accepts.sound sound, .inl ⟨rfl, accepts⟩,
      fun memory => memory.of_commit store,
      fun readable legible => accepts.legible stamp readable legible.created⟩

end Participant
end Reconfig
