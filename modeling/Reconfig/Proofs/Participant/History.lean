/-
The history of a node, and the state that a node keeps of it.

A history is the list of the change requests of a node. The protocol state
follows from it: the mode from the newest request, the versions from the
committed requests, and the number of accepted messages from the states of
all requests. `KeySpace.Keeps` says that a key space holds exactly the state
that follows from a history, and the readers of the state are described by it.
-/
import Mathlib.Data.List.Nodup
import Reconfig.Participant.Basic
import Reconfig.Proofs.Participant.Request
import Reconfig.Proofs.Topology.WellFormed

namespace Reconfig

/-- The change requests of a node, the newest first. -/
abbrev History := List ChangeDetails

namespace History

def committed (h : History) : History := h.filter (·.state == .committed)

/-- The number of committed changes. -/
def version (h : History) : Nat := h.committed.length

/-- The newest committed change. -/
def head (h : History) : Option Uuid := h.committed.head?.map (·.uuid)

/-- The result of the newest committed change. -/
def topology (h : History) : Option Cluster := h.committed.head?.map (·.result)

def latest (h : History) : Option Uuid := h.head?.map (·.uuid)

/-- The version of the newest request. -/
def highest (h : History) : Nat := (h.head?.map (·.version)).getD 0

def mode : History → Mode
  | [] => .accepting
  | d :: _ => if d.state = .prepared then .prepared else .accepting

/-- The number of messages that made the history: one for each request, and
another one for each that is closed. -/
def messages (h : History) : Nat :=
  (h.map fun d => if d.state = .prepared then 1 else 2).sum

def entries (h : History) : List LineageEntry := h.map (·.entry)

/-- Every request was made on a closed history, for a change that applies to the
topology then, and is the only one with its identity. -/
inductive Sound (limits : Limits) : History → Prop
  | nil : Sound limits []
  | cons {d : ChangeDetails} {h : History} (below : Sound limits h)
      (closed : ∀ e ∈ h, e.state ≠ .prepared) (fresh : ∀ e ∈ h, e.uuid ≠ d.uuid)
      (version : d.version = h.version + 1) (previous : d.previous = h.latest)
      (result : d.change.validate h.topology limits = .ok d.result)
      (intact : d.resultHash = d.result.hash) : Sound limits (d :: h)

@[simp] theorem latest_nil : latest [] = none := rfl

@[simp] theorem latest_cons (d : ChangeDetails) (h : History) : latest (d :: h) = some d.uuid := rfl

theorem committed_cons (d : ChangeDetails) (h : History) :
    committed (d :: h) = if d.state = .committed then d :: committed h else committed h := by
  simp [committed, List.filter_cons]

theorem mode_eq_prepared_iff {h : History} :
    h.mode = .prepared ↔ ∃ d below, h = d :: below ∧ d.state = .prepared := by
  cases h with
  | nil => simp [mode]
  | cons d below => simp [mode]

theorem mode_eq_accepting_iff {h : History} :
    h.mode = .accepting ↔ ∀ d ∈ h.head?, d.state ≠ .prepared := by
  cases h with
  | nil => simp [mode]
  | cons d below => simp [mode]

theorem find?_uuid {h : History} {d : ChangeDetails} (distinct : (h.map (·.uuid)).Nodup)
    (mem : d ∈ h) : h.find? (·.uuid == d.uuid) = some d := by
  have isSome : (h.find? (·.uuid == d.uuid)).isSome := by
    rw [List.find?_isSome]
    exact ⟨d, mem, by simp⟩
  obtain ⟨e, found⟩ := Option.isSome_iff_exists.1 isSome
  have same : e.uuid = d.uuid := by simpa using List.find?_some found
  rw [found, List.inj_on_of_nodup_map distinct (List.mem_of_find?_eq_some found) mem same]

namespace Sound

variable {limits : Limits} {d : ChangeDetails} {h : History}

theorem tail (sound : Sound limits (d :: h)) : Sound limits h := by
  cases sound with
  | cons below => exact below

theorem suffix {above : History} (sound : Sound limits (above ++ h)) : Sound limits h := by
  induction above with
  | nil => exact sound
  | cons e above ih => exact ih sound.tail

/-- Only the newest request can be in flight. -/
theorem closed (sound : Sound limits (d :: h)) : ∀ e ∈ h, e.state ≠ .prepared := by
  cases sound with
  | cons _ closed => exact closed

theorem uuids_nodup (sound : Sound limits h) : (h.map (·.uuid)).Nodup := by
  induction sound with
  | nil => exact List.nodup_nil
  | cons below closed fresh _ _ _ _ ih =>
    refine List.nodup_cons.2 ⟨fun mem => ?_, ih⟩
    obtain ⟨e, mem, same⟩ := List.mem_map.1 mem
    exact fresh e mem same

theorem intact (sound : Sound limits h) : ∀ e ∈ h, e.resultHash = e.result.hash := by
  induction sound with
  | nil => simp
  | cons _ _ _ _ _ _ intact ih =>
    intro e mem
    rcases List.mem_cons.1 mem with rfl | mem
    · exact intact
    · exact ih e mem

theorem closed_of_accepting (sound : Sound limits h) (idle : h.mode = .accepting) :
    ∀ e ∈ h, e.state ≠ .prepared := by
  cases sound with
  | nil => simp
  | cons _ closed =>
    intro e mem
    rcases List.mem_cons.1 mem with rfl | mem
    · exact mode_eq_accepting_iff.1 idle e rfl
    · exact closed e mem

/-- A request that is in flight is the newest one. -/
theorem eq_cons_of_prepared (sound : Sound limits h) {e : ChangeDetails} (mem : e ∈ h)
    (open_ : e.state = .prepared) : ∃ below, h = e :: below := by
  cases sound with
  | nil => cases mem
  | cons _ closed =>
    rcases List.mem_cons.1 mem with rfl | mem
    · exact ⟨_, rfl⟩
    · exact absurd open_ (closed e mem)

theorem close (sound : Sound limits (d :: h)) (state : ChangeState) :
    Sound limits (d.inState state :: h) := by
  cases sound with
  | cons below closed fresh version previous result intact =>
    exact .cons below closed fresh version previous result intact

end Sound
end History

/-! ## What a node keeps -/

theorem Uuid.text_ne_keys (u : Uuid) : u.text ≠ Key.mode ∧ u.text ≠ Key.count ∧
    u.text ≠ Key.currentVersion ∧ u.text ≠ Key.highestVersion ∧ u.text ≠ Key.latest ∧
    u.text ≠ Key.lastHost ∧ u.text ≠ Key.lastUser ∧ u.text ≠ Key.lastTimestamp ∧
    u.text ≠ Key.lastRequest := by
  refine ⟨?_, ?_, ?_, ?_, ?_, ?_, ?_, ?_, ?_⟩ <;> exact text_ne (by decide)

namespace KeySpace

/-- The key space holds the state that follows from the history. What it says of
the last message is left open. -/
structure Keeps (space : KeySpace) (h : History) : Prop where
  mode : space.get? Key.mode = some (.text h.mode.text)
  count : space.get? Key.count = some (.long h.messages)
  currentVersion : space.get? Key.currentVersion = some (.long h.version)
  highestVersion : space.get? Key.highestVersion = some (.long h.highest)
  latest : space.get? Key.latest = h.latest.map fun uuid => .text uuid.text
  request : ∀ d ∈ h, space.get? d.uuid.text = some (.ofRecord d.toRecord)
  absent : ∀ uuid : Uuid, (∀ d ∈ h, d.uuid ≠ uuid) → space.get? uuid.text = none

/-- The time of the last message, as it can be read. -/
def lastTimestamp (space : KeySpace) : Except StateFault (Option Timestamp) :=
  readOptional readTimestamp (space.text? Key.lastTimestamp)

theorem keeps_initial : Keeps (NodeState.initialWrites.applyTo ∅) [] where
  mode := rfl
  count := rfl
  currentVersion := rfl
  highestVersion := rfl
  latest := rfl
  request := by simp
  absent uuid _ := by
    have := uuid.text_ne_keys
    simp [NodeState.initialWrites, ChangeSet.applyTo_put, this]
    rfl

namespace Keeps

variable {space : KeySpace} {h : History} {limits : Limits}

theorem requestRecord?_of_mem (keeps : space.Keeps h) {d : ChangeDetails} (mem : d ∈ h) :
    space.requestRecord? d.uuid = some d.toRecord := by
  simp [requestRecord?, record?, keeps.request d mem]

theorem requestRecord?_of_absent (keeps : space.Keeps h) {uuid : Uuid}
    (absent : ∀ d ∈ h, d.uuid ≠ uuid) : space.requestRecord? uuid = none := by
  simp [requestRecord?, record?, keeps.absent uuid absent]

theorem mem_of_requestRecord? (keeps : space.Keeps h) {uuid : Uuid} {r : Record}
    (stored : space.requestRecord? uuid = some r) :
    ∃ d ∈ h, d.uuid = uuid ∧ r = d.toRecord := by
  by_cases known : ∃ d ∈ h, d.uuid = uuid
  · obtain ⟨d, mem, rfl⟩ := known
    rw [keeps.requestRecord?_of_mem mem] at stored
    exact ⟨d, mem, rfl, (Option.some.inj stored).symm⟩
  · have := keeps.requestRecord?_of_absent fun d mem same => known ⟨d, mem, same⟩
    rw [this] at stored
    cases stored

/-- The state is read as the history says, but for what is said of the last
message. -/
theorem nodeState_eq (keeps : space.Keeps h) :
    space.nodeState = space.lastTimestamp.map fun lastTimestamp =>
      { mode := h.mode, count := h.messages, currentVersion := h.version,
        highestVersion := h.highest, latest := h.latest, lastHost := space.text? Key.lastHost,
        lastUser := space.text? Key.lastUser, lastTimestamp } := by
  have mode : space.text? Key.mode = some h.mode.text := by
    simp [text?, keeps.mode, Value.text?]
  have latest : readOptional readUuid (space.text? Key.latest) = .ok h.latest := by
    rw [text?, keeps.latest]
    cases h.latest <;> simp [Value.text?, readOptional, readUuid]
  have count : space.long? Key.count = some h.messages := by
    simp [long?, keeps.count, Value.long?]
  have currentVersion : space.long? Key.currentVersion = some h.version := by
    simp [long?, keeps.currentVersion, Value.long?]
  have highestVersion : space.long? Key.highestVersion = some h.highest := by
    simp [long?, keeps.highestVersion, Value.long?]
  simp only [nodeState, mode, latest, count, currentVersion, highestVersion, Outcome.ok_bind,
    Mode.ofText?_text, Option.getD_some, lastTimestamp]
  cases readOptional readTimestamp (space.text? Key.lastTimestamp) <;> rfl

theorem lineageEntry_of_mem (keeps : space.Keeps h) {d : ChangeDetails} (mem : d ∈ h) :
    space.lineageEntry d.uuid = .ok d.entry := by
  rw [lineageEntry, keeps.requestRecord?_of_mem mem]
  exact d.entry_ofRecord

/-- The chain from a request on consists of that request and those below it. -/
theorem chain_suffix (keeps : space.Keeps h) (sound : History.Sound limits h) (fuel : Nat)
    (above : History) {below : History} (split : h = above ++ below) :
    space.chain fuel below.latest =
      if below.length ≤ fuel then .ok below.entries else .error .endlessChain := by
  induction below generalizing above fuel with
  | nil => cases fuel <;> simp [History.entries, chain]
  | cons d below ih =>
    have mem : d ∈ h := by simp [split]
    have previous : d.previous = History.latest below := by
      rw [split] at sound
      cases sound.suffix with
      | cons _ _ _ _ previous => exact previous
    cases fuel with
    | zero => simp [chain, keeps.lineageEntry_of_mem mem]
    | succ fuel =>
      have step : d.entry.previous = History.latest below := previous
      have rest := ih fuel (above ++ [d]) (by simp [split])
      simp only [History.latest_cons, chain, keeps.lineageEntry_of_mem mem, Outcome.ok_bind, step,
        rest, List.length_cons, Nat.add_le_add_iff_right]
      split <;> rfl

theorem lineage_eq (keeps : space.Keeps h) (sound : History.Sound limits h) :
    space.lineage h.latest =
      if h.length ≤ chainLimit then .ok h.entries else .error .endlessChain :=
  keeps.chain_suffix sound chainLimit [] rfl

theorem request?_of_mem (keeps : space.Keeps h) (sound : History.Sound limits h)
    {d : ChangeDetails} (mem : d ∈ h) : space.request? d.uuid =
      (readTimestamp d.created.storedText).map fun created => some { d with created } := by
  rw [request?, keeps.requestRecord?_of_mem mem]
  simp only [ChangeDetails.ofRecord_toRecord d (sound.intact d mem)]
  cases readTimestamp d.created.storedText <;> rfl

theorem request?_of_absent (keeps : space.Keeps h) {uuid : Uuid}
    (absent : ∀ d ∈ h, d.uuid ≠ uuid) : space.request? uuid = .ok none := by
  rw [request?, keeps.requestRecord?_of_absent absent]

end Keeps
end KeySpace
end Reconfig
