/-
A node that is started again over its log.

A log is opened again as it was, unless it holds a change that nests too deeply, and a
node over the opened log shows what the node before it showed. But nothing keeps a node
from accepting a change that nests too deeply: such a change is written like any other,
and then the log is not opened any more.
-/
import Reconfig.Proofs.Json.Length
import Reconfig.Proofs.Participant.Lifetime
import Reconfig.Proofs.Topology.Batches

namespace Reconfig

/-! ## How long a request is

The text of a hash is not looked into: whatever the hash is, its text has one length. -/

theorem Digest.length_ofJson (j : Json) : (ofJson j).toList.length = 64 := by
  simp [ofJson, Text.hex, List.length_flatMap, Text.hexByte, size]

namespace ChangeDetails

theorem entries_toRecord {d : ChangeDetails} (first : d.previous = none) : d.toRecord.entries =
    [(RequestKey.host, .text d.host), (RequestKey.created, .text d.created.storedText),
      (RequestKey.user, .text d.user), (RequestKey.operation, .ofDocument d.change.toJson),
      (RequestKey.result, .ofDocument d.result.toJson),
      (RequestKey.resultHash, .text d.resultHash), (RequestKey.state, .text d.state.text),
      (RequestKey.version, .long d.version)] := by
  rw [toRecord, first]
  simp only [Dict.insert, Dict.insertEntry, Dict.empty, RequestKey.state, RequestKey.version,
    RequestKey.resultHash, RequestKey.host, RequestKey.user, RequestKey.created,
    RequestKey.operation, RequestKey.result, String.reduceLT, String.reduceEq, if_true, if_false]

/-- Two first requests that differ in their hashes and changes only. -/
theorem length_toRecord {d : ChangeDetails} (first : d.previous = none) (change : Change)
    (hash : String) :
    (Value.ofRecord d.toRecord).toJson.chars.length + (Json.quote hash).length +
        change.toJson.canonical.chars.length =
      (Value.ofRecord { d with change, resultHash := hash }.toRecord).toJson.chars.length +
        (Json.quote d.resultHash).length + d.change.toJson.canonical.chars.length := by
  have also : { d with change, resultHash := hash }.previous = none := first
  rw [Value.ofRecord, Value.ofRecord, entries_toRecord first, entries_toRecord also]
  simp only [Value.toJson, Value.entriesJson, Value.ofDocument, Json.chars, Json.membersTail,
    List.length_append, List.length_cons]
  omega

end ChangeDetails

namespace ChangeSet

/-- Two change-sets that differ in one value only. -/
theorem length_write (before : List Write) (key : String) (v w : Value) (after : List Write) :
    (ChangeSet.mk (before ++ ⟨key, v⟩ :: after)).toJson.chars.length + w.toJson.chars.length =
      (ChangeSet.mk (before ++ ⟨key, w⟩ :: after)).toJson.chars.length + v.toJson.chars.length := by
  cases before with
  | nil =>
    simp only [toJson, writeJson, List.nil_append, List.map_cons, Json.chars, Json.membersTail,
      List.length_append, List.length_cons]
    omega
  | cons first before =>
    have written : (writeJson ⟨key, v⟩).chars.length + w.toJson.chars.length =
        (writeJson ⟨key, w⟩).chars.length + v.toJson.chars.length := by
      simp only [writeJson, Json.chars, Json.membersTail, List.length_append, List.length_cons]
      omega
    have tail := Json.length_itemsTail (before.map writeJson) (after.map writeJson)
      (writeJson ⟨key, v⟩) (writeJson ⟨key, w⟩)
    simp only [toJson, List.cons_append, List.map_cons, List.map_append, Json.chars,
      Json.membersTail, List.length_append, List.length_cons]
    omega

end ChangeSet

/-! ## A change in batches -/

namespace Change

/-- A batch in a batch and so on, with the founding of a cluster inside. -/
def nestedFounding : Nat → Change
  | 0 => Participant.founding
  | n + 1 => .batch [nestedFounding n]

theorem canonical_nestedFounding (n : Nat) : (nestedFounding (n + 1)).toJson.canonical =
    .obj [("changes", .arr [(nestedFounding n).toJson.canonical]), ("type", .str "batch")] := by
  rw [nestedFounding, toJson, Json.canonical_obj]
  simp only [Json.canonicalDict, Json.canonicalMembers, Json.canonical, Json.canonicalItems,
    Dict.ofList, Dict.insert, Dict.insertEntry, Dict.empty, toJsonAll, List.foldl_cons,
    List.foldl_nil, String.reduceLT, String.reduceEq, if_true, if_false]

theorem depth_nestedFounding (n : Nat) : (nestedFounding n).depth = 2 * n + 7 := by
  induction n with
  | zero => rfl
  | succ n ih =>
    rw [depth] at ih
    rw [depth, canonical_nestedFounding]
    simp only [Json.depth, Json.membersDepth, Json.itemsDepth]
    omega

theorem length_nestedFounding (n : Nat) : (nestedFounding n).toJson.canonical.chars.length =
    29 * n + Participant.founding.toJson.canonical.chars.length := by
  induction n with
  | zero => simp [nestedFounding]
  | succ n ih =>
    have changes : (Json.quote "changes").length = 9 := by decide
    have type : (Json.quote "type").length = 6 := by decide
    have batch : (Json.quote "batch").length = 7 := by decide
    rw [canonical_nestedFounding]
    simp only [Json.chars, Json.membersTail, Json.itemsTail, List.length_append, List.length_cons,
      List.length_nil, changes, type, batch, ih]
    omega

theorem apply_nestedFounding (n : Nat) :
    (nestedFounding n).apply none = Participant.founding.apply none := by
  induction n with
  | zero => rfl
  | succ n ih =>
    rw [nestedFounding, apply_batch_singleton, ih]

end Change

/-! ## A node over a new log -/

theorem NodeState.small_initialWrites :
    initialWrites.toJson.bytes.length ≤ Frame.payloadLimit := by
  have light : initialWrites.toJson.weight ≤ 10000 := by decide +kernel
  have length := initialWrites.toJson.length_chars_le_weight
  have bytes := initialWrites.toJson.length_bytes_le
  unfold Frame.payloadLimit
  omega

namespace Participant

/-- A new node with a log of its own and nobody to tell. -/
def logged (name : String) : Participant :=
  ⟨name, .log (ChangeLog.empty.record NodeState.initialWrites), .new ⟨none⟩ []⟩

theorem start_logged (name : String) :
    start name (.log .empty) (.new ⟨none⟩ []) = .ok (logged name) := by
  have recorded : ChangeLog.empty.commit NodeState.initialWrites =
      .ok (ChangeLog.empty.record NodeState.initialWrites) :=
    ChangeLog.commit_eq_ok.2 (.inr ⟨rfl, NodeState.small_initialWrites, rfl⟩)
  have unwritten : (Store.log .empty).space.isInitialized = false := rfl
  rw [start, Store.initialized, unwritten, if_neg Bool.false_ne_true,
    Store.commit_log_eq_ok.2 ⟨_, recorded, rfl⟩]
  rfl

/-- The first message to a new node. -/
def nestedPrepare (n : Nat) : Prepare :=
  ⟨⟨0, "east", "ops"⟩, ⟨.replicate 32 1⟩, 1, .nestedFounding n⟩

def foundedCluster : Cluster := ⟨"c", [⟨"s", [⟨"n", "h", 1, ∅, ∅⟩]⟩], ∅⟩

def newState : NodeState := ⟨.accepting, 0, 0, 0, none, none, none, none⟩

def noon : Timestamp := ⟨2024, 1, 1, 12, 0, 0, 0⟩

theorem checkPrepare_nested (n : Nat) :
    (logged "n").checkPrepare newState (nestedPrepare n) = .ok foundedCluster := by
  have valid : (Change.nestedFounding n).validate none ⟨none⟩ = .ok foundedCluster := by
    refine Change.validate_eq_ok.2 ⟨?_, rfl, rfl⟩
    rw [Change.apply_nestedFounding]
    rfl
  have validated : (logged "n").processor.validate none (nestedPrepare n).change =
      .ok foundedCluster := Outcome.mapError_eq_ok.2 valid
  have asked : (logged "n").space.request? (nestedPrepare n).uuid = .ok none := rfl
  have committed : (logged "n").space.committedTopology newState.latest = .ok none := rfl
  simp only [checkPrepare, asked, committed, Outcome.mapError_ok, Outcome.ok_bind, validated]
  rfl

/-- The change-set of the first message. -/
def nestedWrites (n : Nat) : ChangeSet :=
  prepareWrites newState (nestedPrepare n) foundedCluster noon

theorem length_nestedWrites (n : Nat) : (nestedWrites n).toJson.chars.length ≤ 29 * n + 10000 := by
  -- without the change and the hash the change-set is a fixed text that can be measured
  let d := newRequest newState (nestedPrepare n) foundedCluster noon
  let plain : ChangeDetails := { newRequest newState (nestedPrepare 0) foundedCluster noon with
    change := founding, resultHash := "" }
  have record : _ + _ + _ = (Value.ofRecord plain.toRecord).toJson.chars.length + _ + _ :=
    d.length_toRecord rfl founding ""
  have changes : (nestedWrites n).toJson.chars.length + _ = _ :=
    ChangeSet.length_write [] (nestedPrepare 0).uuid.text (.ofRecord d.toRecord)
      (.ofRecord plain.toRecord) (nestedWrites 0).writes.tail
  have known := (ChangeSet.mk ([] ++ ⟨(nestedPrepare 0).uuid.text, .ofRecord plain.toRecord⟩ ::
    (nestedWrites 0).writes.tail)).toJson.length_chars_le_weight
  have light : (ChangeSet.mk ([] ++ ⟨(nestedPrepare 0).uuid.text, .ofRecord plain.toRecord⟩ ::
      (nestedWrites 0).writes.tail)).toJson.weight ≤ 9000 := by
    decide +kernel
  have hash : (Json.quote d.resultHash).length ≤ 6 * 64 + 2 := by
    rw [← Digest.length_ofJson foundedCluster.toJson]
    exact Json.length_quote_le _
  have change : d.change.toJson.canonical.chars.length = _ := Change.length_nestedFounding n
  omega

/-- The node after its first message. -/
def nestedNode (n : Nat) : Participant :=
  { logged "n" with
    store := .log ((ChangeLog.empty.record NodeState.initialWrites).record (nestedWrites n)) }

theorem handle_nested {n : Nat} (few : n ≤ 100000) :
    (logged "n").handle (.prepare (nestedPrepare n)) noon = (nestedNode n, .ok ()) := by
  have read : (logged "n").state = .ok newState := rfl
  have length := length_nestedWrites n
  have bytes := (nestedWrites n).toJson.length_bytes_le
  have small : (nestedWrites n).toJson.bytes.length ≤ Frame.payloadLimit := by
    rw [show Frame.payloadLimit = 16777216 from rfl]
    omega
  have recorded : (logged "n").store.commit (nestedWrites n) = .ok (nestedNode n).store :=
    Store.commit_log_eq_ok.2 ⟨_, ChangeLog.commit_eq_ok.2 (.inr ⟨rfl, small, rfl⟩), rfl⟩
  have prepared : (logged "n").prepare newState (nestedPrepare n) noon =
      (nestedNode n, .ok ()) := by
    rw [nestedWrites] at recorded
    simp only [prepare, checkPrepare_nested, recorded]
    rfl
  simp only [handle, read, attempt, prepared, Outcome.mapError_ok]

theorem lived_nested {n : Nat} (few : n ≤ 100000) :
    Lived ⟨none⟩ [nestedPrepare n] (nestedNode n) := by
  have blank : (Store.log .empty).Blank := .log (ChangeLog.replay_of_end (.inl rfl))
  have started : Lived ⟨none⟩ [] (logged "n") := .started blank rfl (start_logged "n")
  have handled := started.handled (.prepare (nestedPrepare n)) noon (by decide)
  rw [handle_nested few] at handled
  exact handled

/-! ## Restarts -/

/-- A log is opened again as it was, unless one of the accepted changes nests too deeply.
A node that is then started over it shows what the node before it showed, unless the
chain of requests is too long for both of them. -/
theorem Lived.restart_shows_same {limits : Limits} {accepted : List Prepare} {p : Participant}
    {frames : ChangeLog} (lived : Lived limits accepted p) (log : p.store = .log frames) :
    p.store.reopened =
      (if ∀ m ∈ accepted, m.change.depth ≤ Change.depthLimit then .ok p.store
        else .error (.serialization "frame payload")) ∧
    (accepted.length ≤ chainLimit → ∀ name processor, ∃ q snapshot committed upcoming,
      start name p.store processor = .ok q ∧
        p.discover = .ok snapshot ∧ q.discover = .ok snapshot ∧
        p.committedTopology = .ok committed ∧ q.committedTopology = .ok committed ∧
        p.upcomingTopology = .ok upcoming ∧ q.upcomingTopology = .ok upcoming) ∧
    (chainLimit < accepted.length →
      p.discover = .error (.corrupted "change chain loops") ∧
        ∀ name processor, start name p.store processor =
          .error (.corrupted "change chain loops")) := by
  obtain ⟨h, settled⟩ := lived.settled
  have length := settled.length_eq
  refine ⟨?_, fun short name processor => ?_, fun long => ?_⟩
  · have recounts := settled.recounts
    rw [log] at recounts ⊢
    rw [recounts.reopened_log (History.messages_lt settled.room)]
    simp only [settled.forall_change_iff (·.depth ≤ Change.depthLimit)]
  · rw [← length] at short
    obtain ⟨snapshot, discovered⟩ := settled.discover_eq_ok short
    obtain ⟨upcoming, announced⟩ := settled.upcomingTopology_eq_ok short
    have committed := settled.committedTopology_eq
    have started := settled.start_eq name processor
    rw [if_pos short] at committed started
    exact ⟨_, snapshot, h.topology, upcoming, started, discovered, discovered, committed,
      committed, announced, announced⟩
  · rw [← length] at long
    refine ⟨settled.discover_eq_error long, fun name processor => ?_⟩
    rw [settled.start_eq, if_neg (Nat.not_le.2 long)]

/-- A founding in fifty-six batches survives a restart, and one in fifty-seven is accepted
and lost. -/
theorem nestedFounding_restarts : ∃ p, start "n" (.log .empty) (.new ⟨none⟩ []) = .ok p ∧
    (∃ q r snapshot, p.handle (.prepare (nestedPrepare 56)) noon = (q, .ok ()) ∧
      q.store.reopened = .ok q.store ∧ start "n" q.store (.new ⟨none⟩ []) = .ok r ∧
      q.discover = .ok snapshot ∧ r.discover = .ok snapshot) ∧
    ∃ q, p.handle (.prepare (nestedPrepare 57)) noon = (q, .ok ()) ∧
      q.store.reopened = .error (.serialization "frame payload") := by
  have depth : ∀ n, (nestedPrepare n).change.depth = 2 * n + 7 := Change.depth_nestedFounding
  have limit : Change.depthLimit = 120 := rfl
  refine ⟨logged "n", start_logged "n", ?_, nestedNode 57, handle_nested (by decide), ?_⟩
  · obtain ⟨reopened, shown, -⟩ := (lived_nested (by decide : 56 ≤ 100000)).restart_shows_same rfl
    obtain ⟨r, snapshot, _, _, started, before, after, -⟩ :=
      shown (by decide) "n" (.new ⟨none⟩ [])
    rw [if_pos (by simp [depth, limit])] at reopened
    exact ⟨_, r, snapshot, handle_nested (by decide), reopened, started, before, after⟩
  · obtain ⟨reopened, -⟩ := (lived_nested (by decide : 57 ≤ 100000)).restart_shows_same rfl
    rw [if_neg (by simp [depth, limit])] at reopened
    exact reopened

end Participant
end Reconfig
