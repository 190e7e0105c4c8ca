/-
What a message leaves in the store of a node.

Every value that a message writes is in the form in which it is stored, so its
change-set is read back if it does not nest too deeply. The only part of it that can is
the change of its request, and a node carries out a change however deeply it nests.
-/
import Reconfig.Proofs.Participant.Step
import Reconfig.Proofs.Topology.StoredForm

namespace Reconfig

/-- A change that nests more deeply is written, but its frame is not read again. -/
def Change.depthLimit : Nat := 120

namespace ChangeDetails

variable {d : ChangeDetails}

/-- A record holds texts, one number and two documents. -/
theorem mem_toRecord {key : String} {value : Value} (mem : (key, value) ∈ d.toRecord.entries) :
    (∃ s, value = .text s) ∨ value = .long d.version ∨ value = .ofDocument d.change.toJson ∨
      value = .ofDocument d.result.toJson := by
  have found := Dict.mem_entries_iff.1 mem
  rw [get?_toRecord] at found
  -- one case for each key, in the order in which `get?_toRecord` asks for them
  repeat' split at found
  · obtain ⟨uuid, -, rfl⟩ := Option.map_eq_some_iff.1 found
    exact .inl ⟨_, rfl⟩
  all_goals cases found
  · exact .inr (.inr (.inr rfl))
  · exact .inr (.inr (.inl rfl))
  · exact .inl ⟨_, rfl⟩
  · exact .inl ⟨_, rfl⟩
  · exact .inl ⟨_, rfl⟩
  · exact .inl ⟨_, rfl⟩
  · exact .inr (.inl rfl)
  · exact .inl ⟨_, rfl⟩

theorem stored_toRecord (counted : d.version < 2 ^ 64) : (Value.ofRecord d.toRecord).Stored := by
  refine Value.stored_ofRecord fun ⟨key, value⟩ mem => ?_
  rcases mem_toRecord mem with ⟨s, rfl⟩ | rfl | rfl | rfl
  · exact trivial
  · exact counted
  · exact Value.stored_ofDocument d.change.plain_toJson
  · exact Value.stored_ofDocument d.result.plain_toJson

/-- There is always room for the topology that results, so only the change counts. -/
theorem depth_toRecord_le_iff {n : Nat} (room : 6 ≤ n) :
    (Value.ofRecord d.toRecord).toJson.depth ≤ n + 4 ↔ d.change.depth ≤ n := by
  have change : (Value.ofDocument d.change.toJson).toJson.depth = d.change.depth + 1 :=
    Value.depth_external _
  have result : (Value.ofDocument d.result.toJson).toJson.depth =
      d.result.toJson.canonical.depth + 1 := Value.depth_external _
  have canonical := d.result.toJson.depth_canonical_le
  have topology := d.result.depth_toJson_le
  rw [show n + 4 = n + 1 + 3 from rfl, Value.depth_ofRecord_le_iff]
  constructor
  · intro each
    have kept : d.toRecord.get? RequestKey.operation = some (.ofDocument d.change.toJson) := by
      rw [get?_toRecord]
      rfl
    have := each (RequestKey.operation, .ofDocument d.change.toJson) (Dict.mem_entries_iff.2 kept)
    dsimp only at this
    omega
  · rintro shallow ⟨key, value⟩ mem
    rcases mem_toRecord mem with ⟨s, rfl⟩ | rfl | rfl | rfl
    · rw [Value.depth_text]
      omega
    · rw [Value.depth_long]
      omega
    · dsimp only
      omega
    · dsimp only
      omega

end ChangeDetails

namespace History

variable {limits : Limits} {h : History}

theorem messages_le (h : History) : h.messages ≤ 2 * h.length := by
  induction h with
  | nil => exact Nat.le_refl _
  | cons d h ih =>
    rw [messages_cons, List.length_cons]
    split <;> omega

theorem Sound.version_le_messages (sound : Sound limits h) :
    ∀ d ∈ h.head?, d.version ≤ h.messages := by
  intro d newest
  cases sound with
  | nil => cases newest
  | @cons e below _ _ _ version =>
    cases newest
    have := below.version_le_messages
    rw [version, messages_cons]
    split <;> omega

end History

namespace ChangeSet

theorem stored_initialWrites : NodeState.initialWrites.Stored := by
  intro w written
  have values : (∃ s, w.value = .text s) ∨ w.value = .long 0 := by
    simp only [NodeState.initialWrites, put, empty, List.nil_append, List.cons_append,
      List.mem_cons, List.not_mem_nil, or_false] at written
    rcases written with rfl | rfl | rfl | rfl
    · exact .inl ⟨_, rfl⟩
    · exact .inr rfl
    · exact .inr rfl
    · exact .inr rfl
  rcases values with ⟨s, text⟩ | long
  · rw [text]
    exact trivial
  · rw [long]
    exact show 0 < Text.word64 by decide

theorem depth_initialWrites : NodeState.initialWrites.toJson.depth ≤ Json.depthLimit := by
  decide

namespace Notes

variable {changes : ChangeSet} {h : History}

theorem stored (notes : changes.Notes h) {limits : Limits} (sound : History.Sound limits h)
    (counted : h.messages < 2 ^ 64) : changes.Stored := by
  intro w written
  rcases notes.values w written with ⟨s, text⟩ | ⟨n, bound, long⟩ | ⟨d, newest, record⟩
  · rw [text]
    exact trivial
  · rw [long]
    exact Nat.lt_of_le_of_lt bound counted
  · rw [record]
    exact d.stored_toRecord (Nat.lt_of_le_of_lt (sound.version_le_messages d newest) counted)

/-- Whether the change-set is read back depends on the change of its request. -/
theorem depth_le_iff {d : ChangeDetails} (notes : changes.Notes (d :: h)) :
    changes.toJson.depth ≤ Json.depthLimit ↔ d.change.depth ≤ Change.depthLimit := by
  have record : (Value.ofRecord d.toRecord).toJson.depth ≤ Change.depthLimit + 4 ↔ _ :=
    d.depth_toRecord_le_iff (by decide)
  rw [show Json.depthLimit = Change.depthLimit + 4 + 3 from rfl, depth_toJson_le_iff, ← record]
  constructor
  · intro each
    obtain ⟨_, newest, w, written, request⟩ := notes.request
    cases newest
    rw [← request]
    exact each w written
  · intro shallow w written
    rcases notes.values w written with ⟨s, text⟩ | ⟨n, -, long⟩ | ⟨_, newest, request⟩
    · rw [text, Value.depth_text]
      decide
    · rw [long, Value.depth_long]
      decide
    · cases newest
      rw [request]
      exact shallow

end Notes
end ChangeSet
end Reconfig
