/-
What holds of the state of a node after any messages.

A node that was started on an empty store keeps the state that follows from
some sound history, whatever messages it is sent and whatever its listeners
answer. The mode, the chain of its requests and the version numbers are read
off that history.
-/
import Reconfig.Proofs.Participant.Handling

namespace Reconfig

namespace Participant

/-- The node after the messages in order, and its answers. -/
def handleAll (p : Participant) : List (Message × Timestamp) → Participant × List Answer
  | [] => (p, [])
  | (m, now) :: rest =>
    let (next, answer) := p.handle m now
    let (last, answers) := next.handleAll rest
    (last, answer :: answers)

/-- The identities of the prepare messages that were accepted, the oldest first. -/
def acceptedPrepares : List (Message × Timestamp) → List Answer → List Uuid
  | (.prepare m, _) :: rest, .ok () :: answers => m.uuid :: acceptedPrepares rest answers
  | _ :: rest, _ :: answers => acceptedPrepares rest answers
  | _, _ => []

end Participant

namespace KeySpace

/-- The state in which a change request is stored. -/
def stateOf? (space : KeySpace) (uuid : Uuid) : Option ChangeState :=
  (space.requestRecord? uuid).bind fun r => (r.changeState uuid).toOption

end KeySpace

namespace LineageEntry

/-- Versions count the committed changes: the committed entries have the versions
down to 1, and every entry the version after the committed entries that are older. -/
structure Numbered (entries : List LineageEntry) : Prop where
  committed : (entries.filter (·.state == .committed)).map (·.version) =
    (List.range' 1 (entries.countP (·.state == .committed))).reverse
  each : ∀ newer entry older, entries = newer ++ entry :: older →
    entry.version = older.countP (·.state == .committed) + 1

end LineageEntry

namespace KeySpace

/-- The state of a node that accepted prepare messages with the given identities,
the newest first. -/
structure Orderly (space : KeySpace) (accepted : List Uuid) : Prop where
  prepared : space.text? Key.mode = some Mode.prepared.text ↔
    ∃ uuid : Uuid, (∀ other, space.stateOf? other = some .prepared ↔ other = uuid) ∧
      space.text? Key.latest = some uuid.text
  accepting : space.text? Key.mode = some Mode.accepting.text ↔
    ∀ uuid, space.stateOf? uuid ≠ some .prepared
  history : ∃ latest entries, readOptional readUuid (space.text? Key.latest) = .ok latest ∧
    space.lineage latest = .ok entries ∧ (entries.map (·.uuid)).Nodup ∧
    entries.map (·.uuid) = accepted ∧ LineageEntry.Numbered entries ∧
    space.long? Key.currentVersion = some (entries.countP (·.state == .committed)) ∧
    space.long? Key.highestVersion = some ((entries.head?.map (·.version)).getD 0)

end KeySpace

/-! ## The state that follows from a history -/

namespace History

variable {limits : Limits} {h : History}

theorem countP_entries (h : History) :
    h.entries.countP (·.state == .committed) = h.version := by
  rw [entries, List.countP_map, version, committed, List.countP_eq_length_filter]
  rfl

theorem Sound.numbered (sound : Sound limits h) : LineageEntry.Numbered h.entries where
  committed := by
    induction sound with
    | nil => rfl
    | @cons d h below _ _ version _ _ _ ih =>
      rw [countP_entries] at ih ⊢
      rw [version_cons]
      by_cases committed : d.state = .committed
      · rw [if_pos committed, List.range'_1_concat, List.reverse_append, ← ih]
        simp [entries, ChangeDetails.entry, committed, version, Nat.add_comm]
      · rw [if_neg committed, Nat.add_zero, ← ih]
        simp [entries, ChangeDetails.entry, committed]
  each := by
    intro newer entry older split
    obtain ⟨above, rest, rfl, -, shape⟩ := List.map_eq_append_iff.1 split
    obtain ⟨d, below, rfl, rfl, rfl⟩ := List.map_eq_cons_iff.1 shape
    have version : d.version = History.version below + 1 := by
      cases sound.suffix with
      | cons _ _ _ version => exact version
    exact version.trans (by rw [← countP_entries, entries])

end History

namespace KeySpace
namespace Keeps

variable {space : KeySpace} {h : History} {limits : Limits}

theorem stateOf?_eq_some (keeps : space.Keeps h) {uuid : Uuid} {state : ChangeState} :
    space.stateOf? uuid = some state ↔ ∃ d ∈ h, d.uuid = uuid ∧ d.state = state := by
  constructor
  · intro stored
    obtain ⟨r, found, read⟩ := Option.bind_eq_some_iff.1 stored
    obtain ⟨d, mem, rfl, rfl⟩ := keeps.mem_of_requestRecord? found
    rw [d.changeState_toRecord] at read
    exact ⟨d, mem, rfl, Option.some.inj read⟩
  · rintro ⟨d, mem, rfl, rfl⟩
    rw [stateOf?, keeps.requestRecord?_of_mem mem, Option.bind_some, d.changeState_toRecord]
    rfl

theorem text?_mode (keeps : space.Keeps h) : space.text? Key.mode = some h.mode.text := by
  simp [text?, keeps.mode, Value.text?]

theorem text?_latest (keeps : space.Keeps h) :
    space.text? Key.latest = h.latest.map Uuid.text := by
  rw [text?, keeps.latest]
  cases h.latest <;> rfl

theorem mode_text_iff (keeps : space.Keeps h) {mode : Mode} :
    space.text? Key.mode = some mode.text ↔ h.mode = mode := by
  rw [keeps.text?_mode, Option.some.injEq]
  refine ⟨fun same => ?_, fun same => by rw [same]⟩
  have := congrArg Mode.ofText? same
  simpa using this

theorem orderly (keeps : space.Keeps h) (sound : History.Sound limits h)
    (short : h.length ≤ chainLimit) : space.Orderly (h.map (·.uuid)) where
  prepared := by
    rw [keeps.mode_text_iff, History.mode_eq_prepared_iff]
    constructor
    · rintro ⟨d, below, rfl, inFlight⟩
      refine ⟨d.uuid, fun other => ?_, by rw [keeps.text?_latest]; rfl⟩
      rw [keeps.stateOf?_eq_some]
      constructor
      · rintro ⟨e, mem, rfl, state⟩
        rcases List.mem_cons.1 mem with rfl | mem
        · rfl
        · exact absurd state (sound.closed e mem)
      · rintro rfl
        exact ⟨d, List.mem_cons_self, rfl, inFlight⟩
    · rintro ⟨uuid, only, -⟩
      obtain ⟨d, mem, -, inFlight⟩ := keeps.stateOf?_eq_some.1 ((only uuid).2 rfl)
      obtain ⟨below, rfl⟩ := sound.eq_cons_of_prepared mem inFlight
      exact ⟨d, below, rfl, inFlight⟩
  accepting := by
    rw [keeps.mode_text_iff]
    constructor
    · intro idle uuid stored
      obtain ⟨d, mem, -, inFlight⟩ := keeps.stateOf?_eq_some.1 stored
      exact sound.closed_of_accepting idle d mem inFlight
    · intro none
      refine History.mode_eq_accepting_iff.2 fun d mem inFlight => none d.uuid ?_
      exact keeps.stateOf?_eq_some.2 ⟨d, List.mem_of_mem_head? mem, rfl, inFlight⟩
  history := by
    have uuids : h.entries.map (·.uuid) = h.map (·.uuid) := by
      simp [History.entries, ChangeDetails.entry, Function.comp_def]
    refine ⟨h.latest, h.entries, ?_, ?_, ?_, uuids, sound.numbered, ?_, ?_⟩
    · rw [keeps.text?_latest]
      cases h.latest <;> simp [readOptional, readUuid]
    · rw [keeps.lineage_eq sound, if_pos short]
    · rw [uuids]
      exact sound.uuids_nodup
    · rw [History.countP_entries]
      simp [long?, keeps.currentVersion, Value.long?]
    · simp only [long?, keeps.highestVersion, Option.bind_eq_bind, Option.bind_some, Value.long?,
        History.highest, History.entries, List.head?_map, Option.map_map]
      rfl

end Keeps
end KeySpace

/-! ## Runs -/

namespace Participant

variable {p : Participant} {h : History}

/-- A node keeps a sound history through all messages, and the history grows by
the requests that it accepts. -/
theorem handleAll_keeps (keeps : p.space.Keeps h) (sound : History.Sound p.processor.limits h)
    (messages : List (Message × Timestamp)) :
    ∃ h', (p.handleAll messages).1.space.Keeps h' ∧ History.Sound p.processor.limits h' ∧
      (p.handleAll messages).1.processor.limits = p.processor.limits ∧
      h'.map (·.uuid) =
        (acceptedPrepares messages (p.handleAll messages).2).reverse ++ h.map (·.uuid) := by
  induction messages generalizing p h with
  | nil => exact ⟨h, keeps, sound, rfl, rfl⟩
  | cons first rest ih =>
    obtain ⟨m, now⟩ := first
    have handled := handled keeps sound m now
    cases answer : p.handle m now with
    | mk next outcome =>
    rw [answer] at handled
    simp only [handleAll, answer]
    cases handled with
    | refused e store limits =>
      have kept : next.space.Keeps h := by
        rw [space, store]
        exact keeps
      obtain ⟨h', keeps', sound', limits', uuids⟩ := ih kept (limits ▸ sound)
      refine ⟨h', keeps', limits ▸ sound', limits' ▸ limits, ?_⟩
      rw [uuids]
      cases m <;> rfl
    | accepted accepts keeps' _ _ limits =>
      have sound₁ := accepts.sound sound
      obtain ⟨h', keeps', sound', limits', uuids⟩ := ih keeps' (limits ▸ sound₁)
      refine ⟨h', keeps', limits ▸ sound', limits' ▸ limits, ?_⟩
      rw [uuids]
      cases accepts with
      | prepare => simp [acceptedPrepares, History.request]
      | close closing =>
        cases m with
        | prepare m => cases closing
        | _ => rfl

theorem start_keeps {name : String} {store : Store} {processor : Processor}
    (fresh : store.space = ∅) (started : start name store processor = .ok p) :
    p.space.Keeps [] ∧ p.processor.limits = processor.limits := by
  have notInitialized : store.space.isInitialized = false := by
    rw [fresh]
    rfl
  rw [start, Outcome.bind_eq_ok] at started
  obtain ⟨written, initialized, resumed⟩ := started
  rw [Store.initialized, notInitialized] at initialized
  have keeps : written.space.Keeps [] := by
    rw [Store.space_commit initialized, fresh]
    exact KeySpace.keeps_initial
  rw [resume] at resumed
  obtain ⟨state, -, resumed⟩ := Outcome.bind_eq_ok.1 resumed
  obtain ⟨committed, -, resumed⟩ := Outcome.bind_eq_ok.1 resumed
  cases resumed
  exact ⟨keeps, rfl⟩

/-- Whatever a node that was started on an empty store is sent, its state stays in
order, as long as it accepts no more requests than a chain may have. -/
theorem handleAll_orderly {name : String} {store : Store} {processor : Processor}
    (fresh : store.space = ∅) (started : start name store processor = .ok p)
    (messages : List (Message × Timestamp))
    (short : (acceptedPrepares messages (p.handleAll messages).2).length ≤ chainLimit) :
    (p.handleAll messages).1.space.Orderly
      (acceptedPrepares messages (p.handleAll messages).2).reverse := by
  obtain ⟨keeps, -⟩ := start_keeps fresh started
  obtain ⟨h, keeps, sound, -, uuids⟩ := handleAll_keeps keeps .nil messages
  rw [List.map_nil, List.append_nil] at uuids
  have length : h.length = (acceptedPrepares messages (p.handleAll messages).2).length := by
    simpa using congrArg List.length uuids
  rw [← uuids]
  exact keeps.orderly sound (length ▸ short)

/-- A new node with a store in memory and nobody to tell. -/
def blank (name : String) : Participant :=
  ⟨name, .memory (NodeState.initialWrites.applyTo ∅), .new ⟨none⟩ []⟩

theorem start_blank (name : String) : start name .empty (.new ⟨none⟩ []) = .ok (blank name) := rfl

/-- The change that makes one node a cluster. -/
def founding : Change := .activation ⟨"c", [⟨"s", [⟨"n", "h", 1, ∅, ∅⟩]⟩], ∅⟩

/-- The first message of a founding pass to a node. -/
def foundingPrepare : Prepare := ⟨⟨0, "east", "ops"⟩, ⟨.replicate 32 1⟩, 1, founding⟩

/-- The second message of the pass. -/
def foundingCommit : Close := ⟨⟨1, "east", "ops"⟩, ⟨.replicate 32 1⟩⟩

/-- Two coordinators that send a new node its first change at the same time. -/
def rivalPrepares : List (Message × Timestamp) :=
  [(.prepare ⟨⟨0, "east", "ops"⟩, ⟨.replicate 32 1⟩, 1, founding⟩, ⟨2024, 1, 1, 0, 0, 0, 0⟩),
    (.prepare ⟨⟨0, "west", "ops"⟩, ⟨.replicate 32 2⟩, 1, founding⟩, ⟨2024, 1, 1, 0, 0, 1, 0⟩)]

theorem rivalPrepares_orderly : ∃ p, start "n" .empty (.new ⟨none⟩ []) = .ok p ∧
    (p.handleAll rivalPrepares).1.space.Orderly [⟨.replicate 32 1⟩] := by
  have accepted : acceptedPrepares rivalPrepares ((blank "n").handleAll rivalPrepares).2 =
      [⟨.replicate 32 1⟩] := by
    decide +kernel
  have orderly := handleAll_orderly (show Store.empty.space = ∅ from rfl) (start_blank "n")
    rivalPrepares (by rw [accepted]; decide)
  rw [accepted] at orderly
  exact ⟨blank "n", start_blank "n", orderly⟩

end Participant
end Reconfig
