/-
What nodes and coordinators send each other, and what they store, survives its text.

The only condition is that the document of a value nests no more deeply than the reader follows.
Topologies and answers never do, so that a topology can be told by the text that is hashed, and an
answer gets back as it was given.
-/
import Reconfig.Proofs.Protocol.Written

namespace Reconfig

open Json

theorem ChangeSet.kept {c : ChangeSet} (stored : c.Stored) : Kept toJson ofJson? c :=
  ⟨plain_toJson stored, ofJson?_toJson stored⟩

theorem Reason.depth_toJson_le (r : Reason) : r.toJson.depth ≤ 1 := by
  have uuid : ∀ u : Option Uuid, (ofOption Uuid.toJson u).depth = 0 :=
    depth_ofOption fun _ => rfl
  cases r with
  | concurrentChange inFlight => simp [toJson, depth, membersDepth, uuid]
  | uuidMismatch prepared => simp [toJson, depth, membersDepth, uuid]
  | _ => simp [toJson, depth, membersDepth, Json.ofNat]

theorem Rejection.depth_toJson_le (r : Rejection) : r.toJson.depth ≤ 2 := by
  have reason := r.reason.depth_toJson_le
  have host := depth_ofOption (f := .str) (fun _ => rfl) r.lastHost
  have user := depth_ofOption (f := .str) (fun _ => rfl) r.lastUser
  simp only [toJson, depth, membersDepth]
  omega

theorem AnswerBody.depth_toJson_le (b : AnswerBody) : b.toJson.depth ≤ 3 := by
  obtain ⟨accepted, rejection⟩ := b
  cases rejection with
  | none => simp [toJson, depth, membersDepth]
  | some r =>
    have rejection := r.depth_toJson_le
    simp only [toJson, depth, membersDepth]
    omega

/-- Every kind of document that is sent or stored survives its text. -/
theorem texts_survive :
    (∀ c, SurvivesText Change.toJson Change.ofJson? c) ∧
    (∀ c, SurvivesText Cluster.toJson Cluster.ofJson? c) ∧
    (∀ m : Prepare, m.Fits → SurvivesText Prepare.toJson Prepare.ofJson? m) ∧
    (∀ m : Close, m.context.Fits → SurvivesText Close.toJson Close.ofJson? m) ∧
    (∀ m : Force, m.context.Fits → SurvivesText Force.toJson Force.ofJson? m) ∧
    (∀ s : Snapshot, s.Fits → SurvivesText Snapshot.toJson Snapshot.ofJson? s) ∧
    (∀ v, SurvivesText TopologyView.toJson TopologyView.ofJson? v) ∧
    (∀ r : Rejection, r.reason.Fits → SurvivesText Rejection.toJson Rejection.ofJson? r) ∧
    (∀ b : AnswerBody, b.Fits → SurvivesText AnswerBody.toJson AnswerBody.ofJson? b) ∧
    (∀ c : ChangeSet, c.Stored → SurvivesText ChangeSet.toJson ChangeSet.ofJson? c) ∧
    (∀ c d : Cluster, c.toJson.bytes = d.toJson.bytes → c = d) ∧
    (∀ a : Answer, (AnswerBody.ofAnswer a).Fits →
      ((parse? (AnswerBody.ofAnswer a).toJson.text).bind AnswerBody.ofJson?).map
        AnswerBody.toAnswer = some a) := by
  refine ⟨fun c => c.kept.survivesText, fun c => c.kept.survivesText,
    fun m fits => (Prepare.kept fits).survivesText, fun m fits => (Close.kept fits).survivesText,
    fun m fits => (Force.kept fits).survivesText, fun s fits => (Snapshot.kept fits).survivesText,
    fun v => v.kept.survivesText, fun r fits => (Rejection.kept fits).survivesText,
    fun b fits => (AnswerBody.kept fits).survivesText,
    fun c stored => (ChangeSet.kept stored).survivesText, fun c d => Cluster.bytes_inj,
    fun a fits => ?_⟩
  have shallow := Nat.le_trans (AnswerBody.ofAnswer a).depth_toJson_le
    (show 3 ≤ depthLimit by decide)
  rw [(AnswerBody.kept fits).survivesText.shallow shallow, Option.map_some,
    AnswerBody.toAnswer_ofAnswer]

/-- What a node shows that holds its first change. -/
def holdingSnapshot : Snapshot where
  mode := .prepared
  count := 1
  lastHost := some "east"
  lastUser := none
  lastTimestamp := some ⟨2024, 2, 29, 23, 59, 59, 5000000⟩
  currentVersion := 0
  highestVersion := 1
  latest := some {
    uuid := ⟨.replicate 32 1⟩
    state := .prepared
    version := 1
    previous := none
    change := .batch [.setting .unset (.node "h:1") "k" none]
    result := ⟨"c", [], ∅⟩
    resultHash := ""
    host := "east"
    user := "\n"
    created := ⟨2024, 2, 29, 23, 59, 59, 5000000⟩ }
  lineage := [⟨⟨.replicate 32 1⟩, 1, .prepared, none⟩]

/-- Counters as they are stored. -/
def counterWrites : ChangeSet := ⟨[⟨"n", .long 7⟩, ⟨"o", .object [("a", .external .null)]⟩]⟩

/-- A refusal of a message that comes late. -/
def lateRefusal : Rejection := .plain (.dead 1 2) "late"

theorem texts_survive_holding :
    (parse? (Prepare.toJson ⟨⟨0, "east", "ops"⟩, ⟨.replicate 32 1⟩, 1, .batch []⟩).text).bind
      Prepare.ofJson? = some ⟨⟨0, "east", "ops"⟩, ⟨.replicate 32 1⟩, 1, .batch []⟩ ∧
    (parse? (Close.toJson ⟨⟨1, "east", "ops"⟩, ⟨.replicate 32 1⟩⟩).text).bind Close.ofJson? =
      some ⟨⟨1, "east", "ops"⟩, ⟨.replicate 32 1⟩⟩ ∧
    (parse? (Force.toJson ⟨⟨1, "east", "ops"⟩, ⟨.replicate 32 1⟩, .rolledBack⟩).text).bind
      Force.ofJson? = some ⟨⟨1, "east", "ops"⟩, ⟨.replicate 32 1⟩, .rolledBack⟩ ∧
    (parse? holdingSnapshot.toJson.text).bind Snapshot.ofJson? = some holdingSnapshot ∧
    (parse? lateRefusal.toJson.text).bind Rejection.ofJson? = some lateRefusal ∧
    (parse? counterWrites.toJson.text).bind ChangeSet.ofJson? = some counterWrites ∧
    ((parse? (AnswerBody.ofAnswer (.error lateRefusal)).toJson.text).bind
      AnswerBody.ofJson?).map AnswerBody.toAnswer = some (.error lateRefusal) := by
  obtain ⟨-, -, prepare, close, force, snapshot, -, rejection, -, changeSet, -, answer⟩ :=
    texts_survive
  have zero : 0 < Text.word64 := by decide
  have one : 1 < Text.word64 := by decide
  have first : Context.Fits ⟨0, "east", "ops"⟩ := zero
  have second : Context.Fits ⟨1, "east", "ops"⟩ := one
  have late : lateRefusal.reason.Fits := ⟨one, by decide⟩
  have stored : counterWrites.Stored := by
    simp [ChangeSet.Stored, counterWrites, Value.Stored, Value.StoredEntries, canonical, Plain,
      Text.word64]
  have fits : holdingSnapshot.Fits := by
    refine ⟨one, ?_, zero, one, ?_, ?_⟩
    · rintro _ ⟨⟩
      decide
    · rintro _ ⟨⟩
      exact ⟨one, by decide⟩
    · simp [holdingSnapshot, one]
  refine ⟨(prepare _ ⟨first, one⟩).shallow ?_, (close _ second).shallow ?_,
    (force _ second).shallow ?_, (snapshot _ fits).shallow ?_, (rejection _ late).shallow ?_,
    (changeSet _ stored).shallow ?_, answer _ ?_⟩
  · decide
  · decide
  · decide
  · decide
  · decide
  · decide
  · rintro _ ⟨⟩
    exact late

end Reconfig
