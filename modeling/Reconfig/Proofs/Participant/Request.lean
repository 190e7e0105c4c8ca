/-
A change request is read back from its record.

Closing a request rewrites its state, and the record is then that of the same
request in another state.
-/
import Reconfig.Participant.ChangeRequest
import Reconfig.Proofs.Outcome
import Reconfig.Proofs.Topology.Documents
import Reconfig.Proofs.Uuid

namespace Reconfig
namespace ChangeDetails

/-- The same request, closed or not. -/
def inState (d : ChangeDetails) (state : ChangeState) : ChangeDetails := { d with state }

/-- What the history of a node shows of a request. -/
def entry (d : ChangeDetails) : LineageEntry := ⟨d.uuid, d.version, d.state, d.previous⟩

@[simp] theorem inState_uuid (d : ChangeDetails) (state : ChangeState) :
    (d.inState state).uuid = d.uuid := rfl

@[simp] theorem inState_state (d : ChangeDetails) (state : ChangeState) :
    (d.inState state).state = state := rfl

/-! ## The fields of a record -/

theorem get?_toRecord (d : ChangeDetails) (key : String) : d.toRecord.get? key =
    if key = RequestKey.previous then d.previous.map fun uuid => .text uuid.text
    else if key = RequestKey.result then some (.ofDocument d.result.toJson)
    else if key = RequestKey.operation then some (.ofDocument d.change.toJson)
    else if key = RequestKey.created then some (.text d.created.storedText)
    else if key = RequestKey.user then some (.text d.user)
    else if key = RequestKey.host then some (.text d.host)
    else if key = RequestKey.resultHash then some (.text d.resultHash)
    else if key = RequestKey.version then some (.long d.version)
    else if key = RequestKey.state then some (.text d.state.text)
    else none := by
  cases previous : d.previous with
  | none =>
    by_cases same : key = RequestKey.previous
    · rw [if_pos same, same]
      simp [toRecord, previous, RequestKey.previous, RequestKey.result, RequestKey.operation,
        RequestKey.created, RequestKey.user, RequestKey.host, RequestKey.resultHash,
        RequestKey.version, RequestKey.state]
    · rw [if_neg same]
      simp [toRecord, previous]
  | some uuid => simp [toRecord, previous]

variable (d : ChangeDetails)

@[simp] theorem text?_state : d.toRecord.text? RequestKey.state = some d.state.text := by
  rw [Record.text?, get?_toRecord]
  rfl

@[simp] theorem long?_version : d.toRecord.long? RequestKey.version = some d.version := by
  rw [Record.long?, get?_toRecord]
  rfl

@[simp] theorem text?_resultHash :
    d.toRecord.text? RequestKey.resultHash = some d.resultHash := by
  rw [Record.text?, get?_toRecord]
  rfl

@[simp] theorem text?_host : d.toRecord.text? RequestKey.host = some d.host := by
  rw [Record.text?, get?_toRecord]
  rfl

@[simp] theorem text?_user : d.toRecord.text? RequestKey.user = some d.user := by
  rw [Record.text?, get?_toRecord]
  rfl

@[simp] theorem text?_created :
    d.toRecord.text? RequestKey.created = some d.created.storedText := by
  rw [Record.text?, get?_toRecord]
  rfl

@[simp] theorem text?_previous :
    d.toRecord.text? RequestKey.previous = d.previous.map Uuid.text := by
  rw [Record.text?, get?_toRecord]
  cases d.previous <;> rfl

@[simp] theorem document?_operation :
    d.toRecord.document? RequestKey.operation = .ok (some d.change.toJson.canonical) := by
  rw [Record.document?, get?_toRecord]
  rfl

@[simp] theorem document?_result :
    d.toRecord.document? RequestKey.result = .ok (some d.result.toJson.canonical) := by
  rw [Record.document?, get?_toRecord]
  rfl

theorem insert_state (state : ChangeState) :
    d.toRecord.insert RequestKey.state (.text state.text) = (d.inState state).toRecord := by
  refine Dict.ext_get? fun key => ?_
  rw [Dict.get?_insert, get?_toRecord, get?_toRecord]
  by_cases same : key = RequestKey.state
  · rw [if_pos same, same]
    rfl
  · rw [if_neg same, if_neg same, if_neg same]
    rfl

/-! ## Reading a record -/

@[simp] theorem changeState_toRecord (uuid : Uuid) :
    d.toRecord.changeState uuid = .ok d.state := by
  simp [Record.changeState, Record.requiredText, Record.requireText]

@[simp] theorem previous_toRecord : d.toRecord.previous = .ok d.previous := by
  rw [Record.previous, text?_previous]
  cases d.previous with
  | none => rfl
  | some uuid => simp [readOptional, readUuid, Except.map]

theorem requiredLong_version (uuid : Uuid) :
    d.toRecord.requiredLong RequestKey.version uuid = .ok d.version := by
  simp [Record.requiredLong, Record.requireLong]

theorem requiredText_resultHash (uuid : Uuid) :
    d.toRecord.requiredText RequestKey.resultHash uuid = .ok d.resultHash := by
  simp [Record.requiredText, Record.requireText]

theorem read?_operation (missing : StateFault) :
    d.toRecord.read? RequestKey.operation Change.ofJson? missing = .ok d.change := by
  simp [Record.read?, Change.ofJson?_canonical]

theorem read?_result (missing : StateFault) :
    d.toRecord.read? RequestKey.result Cluster.ofJson? missing = .ok d.result := by
  simp [Record.read?, Cluster.ofJson?_canonical]

theorem entry_ofRecord : LineageEntry.ofRecord d.uuid d.toRecord = .ok d.entry := by
  simp [LineageEntry.ofRecord, requiredLong_version, entry]

/-- A request is read back but for its time, which is what its text says. -/
theorem ofRecord_toRecord (intact : d.resultHash = d.result.hash) :
    ofRecord d.uuid d.toRecord =
      (readTimestamp d.created.storedText).map fun created => { d with created } := by
  simp [ofRecord, read?_operation, read?_result, requiredLong_version, Record.requiredText,
    Record.requireText, ← intact]
  cases readTimestamp d.created.storedText <;> rfl

end ChangeDetails
end Reconfig
