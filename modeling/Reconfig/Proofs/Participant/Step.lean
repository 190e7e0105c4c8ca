/-
What one message does to the history of a node.

A node carries a message out or leaves its store as it was. `History.Accepts`
says which messages a history can take and what history follows, and the
writes of a node make its store keep just that history. What follows after any
number of messages is `History.Leads`.
-/
import Mathlib.Logic.Relation
import Reconfig.Proofs.Participant.History

namespace Reconfig

/-- The request that a message closes, and the state that it closes it in. A
message that leaves the request open closes nothing. -/
def Message.closing? : Message → Option (Context × Uuid × ChangeState)
  | .prepare _ => none
  | .commit m => some (m.context, m.uuid, .committed)
  | .rollback m => some (m.context, m.uuid, .rolledBack)
  | .force m => if m.target = .prepared then none else some (m.context, m.uuid, m.target)

namespace History

/-- The request that a prepare message makes on the history. -/
def request (h : History) (m : Prepare) (result : Cluster) (now : Timestamp) : ChangeDetails where
  uuid := m.uuid
  state := .prepared
  version := m.version
  previous := h.latest
  change := m.change
  result := result
  resultHash := result.hash
  host := m.context.host
  user := m.context.user
  created := now

/-- The history that follows when a message is carried out. -/
inductive Accepts (limits : Limits) : History → Message → Timestamp → History → Prop
  | prepare {h : History} {m : Prepare} {now : Timestamp} {result : Cluster}
      (fence : h.messages = m.context.expected) (idle : h.mode = .accepting)
      (version : m.version = h.version + 1) (fresh : ∀ d ∈ h, d.uuid ≠ m.uuid)
      (valid : m.change.validate h.topology limits = .ok result) :
      Accepts limits h (.prepare m) now (h.request m result now :: h)
  | close {d : ChangeDetails} {below : History} {m : Message} {now : Timestamp} {context : Context}
      {target : ChangeState} (closing : m.closing? = some (context, d.uuid, target))
      (fence : messages (d :: below) = context.expected) (inFlight : d.state = .prepared) :
      Accepts limits (d :: below) m now (d.inState target :: below)

end History

theorem Message.target_ne_prepared {m : Message} {context : Context} {uuid : Uuid}
    {target : ChangeState} (closing : m.closing? = some (context, uuid, target)) :
    target ≠ .prepared := by
  cases m with
  | prepare m => simp [closing?] at closing
  | commit m =>
    simp only [closing?, Option.some.injEq, Prod.mk.injEq] at closing
    rw [← closing.2.2]
    decide
  | rollback m =>
    simp only [closing?, Option.some.injEq, Prod.mk.injEq] at closing
    rw [← closing.2.2]
    decide
  | force m =>
    simp only [closing?] at closing
    split at closing
    · cases closing
    · rename_i other
      simp only [Option.some.injEq, Prod.mk.injEq] at closing
      rw [← closing.2.2]
      exact other

namespace History

variable {limits : Limits} {h h' : History} {m : Message} {now : Timestamp}

theorem messages_cons (d : ChangeDetails) (h : History) :
    messages (d :: h) = (if d.state = .prepared then 1 else 2) + messages h := by
  simp [messages]

theorem version_cons (d : ChangeDetails) (h : History) :
    version (d :: h) = version h + if d.state = .committed then 1 else 0 := by
  unfold version
  rw [committed_cons]
  split <;> simp

theorem topology_cons (d : ChangeDetails) (h : History) :
    topology (d :: h) = if d.state = .committed then some d.result else h.topology := by
  rw [topology, committed_cons]
  split <;> rfl

theorem version_le_messages (h : History) : h.version ≤ h.messages := by
  induction h with
  | nil => exact Nat.le_refl _
  | cons d h ih =>
    rw [version_cons, messages_cons]
    split <;> split <;> omega

namespace Accepts

theorem sound (accepts : Accepts limits h m now h') (sound : Sound limits h) : Sound limits h' := by
  cases accepts with
  | prepare fence idle version fresh valid =>
    exact .cons sound (sound.closed_of_accepting idle) fresh version rfl valid rfl
  | close closing fence inFlight => exact sound.close _

/-- A prepare message is carried out only as a new request on an idle history. -/
theorem of_prepare {m : Prepare} (accepts : Accepts limits h (.prepare m) now h') :
    ∃ result, h.messages = m.context.expected ∧ h.mode = .accepting ∧
      m.version = h.version + 1 ∧ (∀ d ∈ h, d.uuid ≠ m.uuid) ∧
      m.change.validate h.topology limits = .ok result ∧ h' = h.request m result now :: h := by
  generalize sent : Message.prepare m = message at accepts
  cases accepts with
  | prepare fence idle version fresh valid =>
    cases sent
    exact ⟨_, fence, idle, version, fresh, valid, rfl⟩
  | close closing =>
    rw [← sent] at closing
    cases closing

theorem of_closing {context : Context} {uuid : Uuid} {target : ChangeState}
    (accepts : Accepts limits h m now h') (closing : m.closing? = some (context, uuid, target)) :
    ∃ d below, h = d :: below ∧ d.uuid = uuid ∧ d.state = .prepared ∧
      h.messages = context.expected ∧ h' = d.inState target :: below := by
  cases accepts with
  | prepare => cases closing
  | close closes fence inFlight =>
    rw [closing] at closes
    cases closes
    exact ⟨_, _, rfl, rfl, inFlight, fence, rfl⟩

theorem messages (accepts : Accepts limits h m now h') : h'.messages = h.messages + 1 := by
  cases accepts with
  | prepare fence idle version fresh valid =>
    rw [messages_cons, if_pos (show (History.request _ _ _ _).state = .prepared from rfl),
      Nat.add_comm]
  | close closing fence inFlight =>
    rw [messages_cons, messages_cons, if_pos inFlight,
      if_neg (show (ChangeDetails.inState _ _).state ≠ _ from Message.target_ne_prepared closing)]
    omega

end Accepts

/-- One history follows from the other by messages that the node accepts. -/
def Leads : History → History → Prop :=
  Relation.ReflTransGen fun h h' => ∃ limits m now, Accepts limits h m now h'

namespace Leads

theorem messages_le (leads : Leads h h') : h.messages ≤ h'.messages := by
  induction leads with
  | refl => exact Nat.le_refl _
  | tail _ step ih =>
    obtain ⟨limits, m, now, accepts⟩ := step
    rw [accepts.messages]
    omega

theorem eq_of_messages (leads : Leads h h') (same : h.messages = h'.messages) : h = h' := by
  cases leads with
  | refl => rfl
  | tail earlier step =>
    obtain ⟨limits, m, now, accepts⟩ := step
    have := messages_le earlier
    rw [accepts.messages] at same
    omega

/-- A request stays in the history as it was made, and is closed at most once. -/
theorem mem (leads : Leads h h') {d : ChangeDetails} (mem : d ∈ h) : ∃ state,
    d.inState state ∈ h' ∧ (state = d.state ∨ d.state = .prepared ∧ state ≠ .prepared) := by
  induction leads with
  | refl => exact ⟨d.state, mem, .inl rfl⟩
  | tail _ step ih =>
    obtain ⟨limits, m, now, accepts⟩ := step
    obtain ⟨state, mem, was⟩ := ih
    cases accepts with
    | prepare => exact ⟨state, List.mem_cons_of_mem _ mem, was⟩
    | @close e below _ _ _ target closing _ inFlight =>
      rcases List.mem_cons.1 mem with rfl | mem
      · have wasOpen : d.state = .prepared := by
          rcases was with same | ⟨wasOpen, -⟩
          · exact same ▸ inFlight
          · exact wasOpen
        exact ⟨target, List.mem_cons_self, .inr ⟨wasOpen, Message.target_ne_prepared closing⟩⟩
      · exact ⟨state, List.mem_cons_of_mem _ mem, was⟩

theorem mem_of_closed (leads : Leads h h') {d : ChangeDetails} (mem : d ∈ h)
    (closed : d.state ≠ .prepared) : d ∈ h' := by
  obtain ⟨state, mem', rfl | ⟨wasOpen, -⟩⟩ := leads.mem mem
  · exact mem'
  · exact absurd wasOpen closed

/-- A request that is open was so before, where it was known. -/
theorem open_of_open {below : History} {d e : ChangeDetails}
    (leads : Leads h (e :: below)) (distinct : ((e :: below).map (·.uuid)).Nodup)
    (openE : e.state = .prepared) (mem : d ∈ h) (same : d.uuid = e.uuid) :
    d.state = .prepared := by
  by_contra closed
  obtain rfl := List.inj_on_of_nodup_map distinct (leads.mem_of_closed mem closed)
    List.mem_cons_self same
  exact closed openE

theorem exists_uuid (leads : Leads h h') {uuid : Uuid} (mem : ∃ d ∈ h, d.uuid = uuid) :
    ∃ d ∈ h', d.uuid = uuid := by
  obtain ⟨d, mem, same⟩ := mem
  obtain ⟨state, mem, -⟩ := leads.mem mem
  exact ⟨_, mem, same⟩

end Leads

end History

/-! ## The writes of a message -/

/-- The change-set stores the newest request of the history, and beside it only texts
and numbers that the history accounts for. -/
structure ChangeSet.Notes (changes : ChangeSet) (h : History) : Prop where
  filled : changes.isEmpty = false
  request : ∃ d ∈ h.head?, ∃ w ∈ changes.writes, w.value = .ofRecord d.toRecord
  values : ∀ w ∈ changes.writes, (∃ s, w.value = .text s) ∨
    (∃ n ≤ h.messages, w.value = .long n) ∨ ∃ d ∈ h.head?, w.value = .ofRecord d.toRecord

namespace Participant

theorem get?_provenance (c : ChangeSet) (context : Context) (now : Timestamp) (space : KeySpace)
    (key : String) : ((provenance c context now).applyTo space).get? key =
      if key = Key.lastTimestamp then some (.text now.storedText)
      else if key = Key.lastUser then some (.text context.user)
      else if key = Key.lastHost then some (.text context.host)
      else (c.applyTo space).get? key := by
  simp [provenance, ChangeSet.applyTo_put]

theorem get?_prepareWrites (state : NodeState) (m : Prepare) (result : Cluster) (now : Timestamp)
    (space : KeySpace) (key : String) :
    ((prepareWrites state m result now).applyTo space).get? key =
      if key = Key.lastTimestamp then some (.text now.storedText)
      else if key = Key.lastUser then some (.text m.context.user)
      else if key = Key.lastHost then some (.text m.context.host)
      else if key = Key.count then some (.long (state.count + 1))
      else if key = Key.highestVersion then some (.long m.version)
      else if key = Key.latest then some (.text m.uuid.text)
      else if key = Key.lastRequest then some (.text "PREPARE")
      else if key = Key.mode then some (.text Mode.prepared.text)
      else if key = m.uuid.text then some (.ofRecord (newRequest state m result now).toRecord)
      else space.get? key := by
  rw [prepareWrites, get?_provenance]
  simp [ChangeSet.applyTo_put]

theorem get?_closeWrites (state : NodeState) (context : Context) (uuid : Uuid) (record : Record)
    (version : Nat) (closing : Closing) (now : Timestamp) (space : KeySpace) (key : String) :
    ((closeWrites state context uuid record version closing now).applyTo space).get? key =
      if key = Key.lastTimestamp then some (.text now.storedText)
      else if key = Key.lastUser then some (.text context.user)
      else if key = Key.lastHost then some (.text context.host)
      else if key = Key.count then some (.long (state.count + 1))
      else if key = Key.lastRequest then some (.text closing.request)
      else if key = Key.mode then some (.text Mode.accepting.text)
      else if key = uuid.text then
        some (.ofRecord (record.insert RequestKey.state (.text closing.target.text)))
      else if key = Key.currentVersion ∧ closing.target = .committed then some (.long version)
      else space.get? key := by
  rw [closeWrites, get?_provenance]
  by_cases committed : closing.target = .committed
  · simp [ChangeSet.applyTo_put, committed]
  · simp [ChangeSet.applyTo_put, committed]

theorem notes_prepareWrites {state : NodeState} {h : History} {m : Prepare}
    (count : state.count = h.messages) (latest : state.latest = h.latest)
    (version : m.version = h.version + 1) (result : Cluster) (now : Timestamp) :
    (prepareWrites state m result now).Notes (h.request m result now :: h) := by
  have messages : History.messages (h.request m result now :: h) = h.messages + 1 := by
    rw [History.messages_cons, if_pos (show (h.request m result now).state = .prepared from rfl),
      Nat.add_comm]
  have bound := h.version_le_messages
  have made : newRequest state m result now = h.request m result now := by
    rw [newRequest, latest]
    rfl
  refine ⟨rfl, ⟨_, rfl, ⟨m.uuid.text, .ofRecord (newRequest state m result now).toRecord⟩, ?_, ?_⟩,
    fun w written => ?_⟩
  · simp [prepareWrites, provenance, ChangeSet.put, ChangeSet.empty]
  · rw [made]
  · simp only [prepareWrites, provenance, ChangeSet.put, ChangeSet.empty, List.nil_append,
      List.cons_append, List.mem_cons, List.not_mem_nil, or_false] at written
    rcases written with rfl | rfl | rfl | rfl | rfl | rfl | rfl | rfl | rfl
    · exact .inr (.inr ⟨_, rfl, by rw [made]⟩)
    · exact .inl ⟨_, rfl⟩
    · exact .inl ⟨_, rfl⟩
    · exact .inl ⟨_, rfl⟩
    · exact .inr (.inl ⟨_, by omega, rfl⟩)
    · exact .inr (.inl ⟨_, by omega, rfl⟩)
    · exact .inl ⟨_, rfl⟩
    · exact .inl ⟨_, rfl⟩
    · exact .inl ⟨_, rfl⟩

theorem notes_closeWrites {state : NodeState} {d : ChangeDetails} {below : History}
    {context : Context} {closing : Closing} (inFlight : d.state = .prepared)
    (count : state.count = History.messages (d :: below))
    (version : d.version = below.version + 1) (terminal : closing.target ≠ .prepared)
    (now : Timestamp) :
    (closeWrites state context d.uuid d.toRecord d.version closing now).Notes
      (d.inState closing.target :: below) := by
  have before : History.messages (d :: below) = below.messages + 1 := by
    rw [History.messages_cons, if_pos inFlight, Nat.add_comm]
  have after : History.messages (d.inState closing.target :: below) = below.messages + 2 := by
    rw [History.messages_cons, if_neg (by rw [ChangeDetails.inState_state]; exact terminal),
      Nat.add_comm]
  have bound := below.version_le_messages
  have record : d.toRecord.insert RequestKey.state (.text closing.target.text) =
      (d.inState closing.target).toRecord := d.insert_state _
  have writes : ∀ w,
      w ∈ (closeWrites state context d.uuid d.toRecord d.version closing now).writes ↔
      (closing.target = .committed ∧ w = ⟨Key.currentVersion, .long d.version⟩) ∨
      w = ⟨d.uuid.text, .ofRecord (d.inState closing.target).toRecord⟩ ∨
      w = ⟨Key.mode, .text Mode.accepting.text⟩ ∨ w = ⟨Key.lastRequest, .text closing.request⟩ ∨
      w = ⟨Key.count, .long (state.count + 1)⟩ ∨ w = ⟨Key.lastHost, .text context.host⟩ ∨
      w = ⟨Key.lastUser, .text context.user⟩ ∨ w = ⟨Key.lastTimestamp, .text now.storedText⟩ := by
    intro w
    rw [closeWrites, record]
    by_cases committed : closing.target = .committed
    · simp [committed, provenance, ChangeSet.put, ChangeSet.empty]
    · simp [committed, provenance, ChangeSet.put, ChangeSet.empty]
  refine ⟨?_, ⟨_, rfl, _, (writes _).2 (.inr (.inl rfl)), rfl⟩, fun w written => ?_⟩
  · simp [closeWrites, provenance, ChangeSet.put, ChangeSet.isEmpty]
  · rcases (writes w).1 written with ⟨-, rfl⟩ | rfl | rfl | rfl | rfl | rfl | rfl | rfl
    · exact .inr (.inl ⟨_, by omega, rfl⟩)
    · exact .inr (.inr ⟨_, rfl, rfl⟩)
    · exact .inl ⟨_, rfl⟩
    · exact .inl ⟨_, rfl⟩
    · exact .inr (.inl ⟨_, by omega, rfl⟩)
    · exact .inl ⟨_, rfl⟩
    · exact .inl ⟨_, rfl⟩
    · exact .inl ⟨_, rfl⟩

end Participant

namespace KeySpace
namespace Keeps

variable {space : KeySpace} {h : History}

theorem prepareWrites (keeps : space.Keeps h) {state : NodeState} {m : Prepare} {result : Cluster}
    {now : Timestamp} (count : state.count = h.messages) (latest : state.latest = h.latest)
    (fresh : ∀ d ∈ h, d.uuid ≠ m.uuid) :
    ((Participant.prepareWrites state m result now).applyTo space).Keeps
      (h.request m result now :: h) := by
  have made : Participant.newRequest state m result now = h.request m result now := by
    rw [History.request, ← latest]
    rfl
  refine ⟨?_, ?_, ?_, ?_, ?_, ?_, ?_⟩
  · rw [Participant.get?_prepareWrites]
    rfl
  · rw [Participant.get?_prepareWrites, History.messages_cons,
      if_pos (show (History.request _ _ _ _).state = .prepared from rfl), count, Nat.add_comm]
    rfl
  · have other : Key.currentVersion ≠ m.uuid.text := m.uuid.text_ne_keys.2.2.1.symm
    rw [Participant.get?_prepareWrites, History.version_cons]
    iterate 8 rw [if_neg (by decide)]
    rw [if_neg other, keeps.currentVersion]
    rfl
  · rw [Participant.get?_prepareWrites]
    rfl
  · rw [Participant.get?_prepareWrites]
    rfl
  · intro d mem
    rw [Participant.get?_prepareWrites]
    simp only [d.uuid.text_ne_keys, if_false, Uuid.text_inj]
    rcases List.mem_cons.1 mem with rfl | mem
    · rw [made, if_pos (show (h.request m result now).uuid = m.uuid from rfl)]
    · rw [if_neg (fresh d mem), keeps.request d mem]
  · intro uuid absent
    rw [Participant.get?_prepareWrites]
    simp only [uuid.text_ne_keys, if_false, Uuid.text_inj]
    have other : uuid ≠ m.uuid := fun same => absent _ List.mem_cons_self same.symm
    rw [if_neg other]
    exact keeps.absent uuid fun d mem => absent d (List.mem_cons_of_mem _ mem)

theorem closeWrites {d : ChangeDetails} {below : History} {limits : Limits}
    (keeps : space.Keeps (d :: below)) (sound : History.Sound limits (d :: below))
    (inFlight : d.state = .prepared) {state : NodeState} {context : Context}
    {closing : Participant.Closing} {now : Timestamp}
    (count : state.count = History.messages (d :: below)) (terminal : closing.target ≠ .prepared) :
    ((Participant.closeWrites state context d.uuid d.toRecord d.version closing now).applyTo
      space).Keeps (d.inState closing.target :: below) := by
  have ⟨fresh, version⟩ : (∀ e ∈ below, e.uuid ≠ d.uuid) ∧ d.version = below.version + 1 := by
    cases sound with
    | cons _ _ fresh version => exact ⟨fresh, version⟩
  have keys := d.uuid.text_ne_keys
  refine ⟨?_, ?_, ?_, ?_, ?_, ?_, ?_⟩
  · rw [Participant.get?_closeWrites]
    iterate 5 rw [if_neg (by decide)]
    rw [if_pos rfl, History.mode, ChangeDetails.inState_state, if_neg terminal]
  · rw [Participant.get?_closeWrites, History.messages_cons, ChangeDetails.inState_state,
      if_neg terminal, count, History.messages_cons, if_pos inFlight]
    iterate 3 rw [if_neg (by decide)]
    rw [if_pos rfl]
    congr 2
    omega
  · rw [Participant.get?_closeWrites, History.version_cons, ChangeDetails.inState_state]
    iterate 6 rw [if_neg (by decide)]
    rw [if_neg keys.2.2.1.symm]
    by_cases committed : closing.target = .committed
    · rw [if_pos ⟨rfl, committed⟩, if_pos committed, version]
    · rw [if_neg fun both => committed both.2, if_neg committed, keeps.currentVersion,
        History.version_cons, if_neg (by rw [inFlight]; decide)]
  · rw [Participant.get?_closeWrites]
    iterate 6 rw [if_neg (by decide)]
    rw [if_neg keys.2.2.2.1.symm, if_neg fun both => absurd both.1 (by decide),
      keeps.highestVersion]
    rfl
  · rw [Participant.get?_closeWrites]
    iterate 6 rw [if_neg (by decide)]
    rw [if_neg keys.2.2.2.2.1.symm, if_neg fun both => absurd both.1 (by decide), keeps.latest]
    rfl
  · intro e mem
    rw [Participant.get?_closeWrites]
    simp only [e.uuid.text_ne_keys, if_false, false_and, Uuid.text_inj]
    rcases List.mem_cons.1 mem with rfl | mem
    · rw [if_pos (ChangeDetails.inState_uuid _ _), d.insert_state]
    · rw [if_neg (fresh e mem), keeps.request e (List.mem_cons_of_mem _ mem)]
  · intro uuid absent
    rw [Participant.get?_closeWrites]
    simp only [uuid.text_ne_keys, if_false, false_and, Uuid.text_inj]
    have other : uuid ≠ d.uuid := fun same => absent _ List.mem_cons_self same.symm
    rw [if_neg other]
    refine keeps.absent uuid fun e mem => ?_
    rcases List.mem_cons.1 mem with rfl | mem
    · exact other.symm
    · exact absent e (List.mem_cons_of_mem _ mem)

end Keeps
end KeySpace
end Reconfig
