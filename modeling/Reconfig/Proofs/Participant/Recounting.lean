/-
The log of a node recounts its history.

A log has one frame for the first start of the node and one for each message that was
accepted, and all of them are in the form in which they are stored. Whether the log can be
opened again is therefore a question about the changes in the history only.
-/
import Reconfig.Proofs.Participant.Footprint
import Reconfig.Proofs.Store.Recovery

namespace Reconfig

/-- Nothing was ever written into the store. -/
inductive Store.Blank : Store → Prop
  | memory : Blank .empty
  | log {frames : ChangeLog} (opened : ChangeLog.openFile [] = .ok frames) : Blank (.log frames)

/-- A log has a frame for each message of the history after the frame of the first start.
It can be read unless a change of the history nests too deeply. -/
inductive Store.Recounts : Store → History → Prop
  | memory (space : KeySpace) (h : History) : Recounts (.memory space) h
  | log {cs : List ChangeSet} {h : History}
      (written : ∀ c ∈ cs, c.Stored ∧ c.toJson.bytes.length ≤ Frame.payloadLimit)
      (counted : cs.length = h.messages + 1)
      (readable : (∀ c ∈ cs, c.toJson.depth ≤ Json.depthLimit) ↔
        ∀ d ∈ h, d.change.depth ≤ Change.depthLimit) :
      Recounts (.log (ChangeLog.empty.recordAll cs)) h

namespace History

variable {limits : Limits} {h h' : History} {m : Message} {now : Timestamp}

/-- A message adds no change but that of the newest request. -/
theorem Accepts.forall_change_iff (accepts : Accepts limits h m now h') (P : Change → Prop) :
    (∀ d ∈ h', P d.change) ↔ (∀ d ∈ h, P d.change) ∧ ∀ d ∈ h'.head?, P d.change := by
  cases accepts with
  | prepare => simp [and_comm]
  | close =>
    simp only [List.forall_mem_cons, List.head?_cons, Option.mem_some_iff, forall_eq']
    exact ⟨fun ⟨newest, below⟩ => ⟨⟨newest, below⟩, newest⟩, fun ⟨each, _⟩ => each⟩

end History

namespace Store

variable {s t : Store} {h h' : History} {limits : Limits}

theorem commit_log_eq_ok {frames : ChangeLog} {c : ChangeSet} :
    (Store.log frames).commit c = .ok t ↔ ∃ next, frames.commit c = .ok next ∧ .log next = t := by
  rw [commit, Outcome.map_eq_ok]
  simp only [Outcome.mapError_eq_ok]

theorem Blank.space (blank : s.Blank) : s.space = ∅ := by
  cases blank with
  | memory => rfl
  | log opened =>
    rw [ChangeLog.openFile, ChangeLog.replay_of_end (.inl rfl)] at opened
    cases opened
    rfl

namespace Recounts

theorem of_blank (blank : s.Blank) (committed : s.commit NodeState.initialWrites = .ok t) :
    t.Recounts [] := by
  cases blank with
  | memory =>
    cases committed
    exact .memory _ _
  | log opened =>
    rw [ChangeLog.openFile, ChangeLog.replay_of_end (.inl rfl)] at opened
    cases opened
    obtain ⟨next, recorded, rfl⟩ := commit_log_eq_ok.1 committed
    rcases ChangeLog.commit_eq_ok.1 recorded with ⟨none, -⟩ | ⟨-, small, rfl⟩
    · cases none
    · refine @log [NodeState.initialWrites] [] ?_ rfl ?_
      · simpa using ⟨ChangeSet.stored_initialWrites, small⟩
      · simpa using ChangeSet.depth_initialWrites

theorem of_commit {m : Message} {now : Timestamp} {c : ChangeSet} (recounts : s.Recounts h)
    (accepts : History.Accepts limits h m now h') (notes : c.Notes h') (stored : c.Stored)
    (committed : s.commit c = .ok t) : t.Recounts h' := by
  cases recounts with
  | memory =>
    cases committed
    exact .memory _ _
  | @log cs h written counted readable =>
    obtain ⟨next, recorded, rfl⟩ := commit_log_eq_ok.1 committed
    rcases ChangeLog.commit_eq_ok.1 recorded with ⟨none, -⟩ | ⟨-, small, rfl⟩
    · rw [notes.filled] at none
      cases none
    · have longer : (ChangeLog.empty.recordAll cs).record c =
          ChangeLog.empty.recordAll (cs ++ [c]) := by
        rw [ChangeLog.recordAll_append]
        rfl
      have newest : c.toJson.depth ≤ Json.depthLimit ↔
          ∀ d ∈ h'.head?, d.change.depth ≤ Change.depthLimit := by
        obtain ⟨d, head, -⟩ := notes.request
        obtain ⟨below, rfl⟩ := List.head?_eq_some_iff.1 head
        simpa using notes.depth_le_iff
      rw [longer]
      refine .log ?_ ?_ ?_
      · intro e mem
        rcases List.mem_append.1 mem with mem | mem
        · exact written e mem
        · rw [List.mem_singleton.1 mem]
          exact ⟨stored, small⟩
      · rw [List.length_append, counted, accepts.messages]
        rfl
      · rw [List.forall_mem_append, List.forall_mem_singleton, readable, newest]
        exact (accepts.forall_change_iff (·.depth ≤ Change.depthLimit)).symm

/-- A log is opened as it was, or not at all. -/
theorem reopened_log {frames : ChangeLog} (recounts : (Store.log frames).Recounts h)
    (counted : h.messages < 2 ^ 64) : (Store.log frames).reopened =
      if ∀ d ∈ h, d.change.depth ≤ Change.depthLimit then .ok (.log frames)
      else .error (.serialization "frame payload") := by
  cases recounts with
  | log written count readable =>
    rw [reopened, ChangeLog.openFile_recordAll _ written (by omega)]
    simp only [readable]
    split <;> rfl

theorem eq_of_reopened (recounts : s.Recounts h) (counted : h.messages < 2 ^ 64)
    (reopened : s.reopened = .ok t) : t = s := by
  cases s with
  | memory space =>
    cases reopened
    rfl
  | log frames =>
    rw [recounts.reopened_log counted] at reopened
    split at reopened
    · cases reopened
      rfl
    · cases reopened

end Recounts
end Store

end Reconfig
