/-
Messages, snapshots and answers as documents.
-/
import Reconfig.Protocol.Failure
import Reconfig.Protocol.Message
import Reconfig.Topology.Wire

namespace Reconfig

open Json

namespace Uuid

def toJson (u : Uuid) : Json := .str u.text

def ofJson? (j : Json) : Option Uuid := do parse? (← j.asString?)

end Uuid

namespace Timestamp

def toJson (t : Timestamp) : Json := .str t.documentText

def ofJson? (j : Json) : Option Timestamp := do parseLoose? (← j.asString?)

end Timestamp

def Address.toJson (a : Address) : Json := .str a.text

def Address.ofJson? (j : Json) : Option Address := j.asString?.map Address.mk

def LogicalState.toJson (s : LogicalState) : Json := .str s.text

def LogicalState.ofJson? (j : Json) : Option LogicalState := do ofText? (← j.variantName?)

def Mode.toJson (m : Mode) : Json := .str m.text

def Mode.ofJson? (j : Json) : Option Mode := do ofText? (← j.variantName?)

def ChangeState.toJson (s : ChangeState) : Json := .str s.text

def ChangeState.ofJson? (j : Json) : Option ChangeState := do ofText? (← j.variantName?)

namespace Context

def toJson (c : Context) : Json :=
  .obj [("expected_mutative_message_count", .ofNat c.expected), ("host", .str c.host),
    ("user", .str c.user)]

def ofJson? (j : Json) : Option Context := do
  let f ← j.fields? ["expected_mutative_message_count", "host", "user"]
  pure {
    expected := ← f.required? "expected_mutative_message_count" asWord64?
    host := ← f.required? "host" asString?
    user := ← f.required? "user" asString? }

end Context

namespace Prepare

def toJson (m : Prepare) : Json :=
  .obj [("context", m.context.toJson), ("change_uuid", m.uuid.toJson),
    ("version_number", .ofNat m.version), ("change", m.change.toJson)]

def ofJson? (j : Json) : Option Prepare := do
  let f ← j.fields? ["context", "change_uuid", "version_number", "change"]
  pure {
    context := ← f.required? "context" Context.ofJson?
    uuid := ← f.required? "change_uuid" Uuid.ofJson?
    version := ← f.required? "version_number" asWord64?
    change := ← f.required? "change" Change.ofJson? }

end Prepare

namespace Close

def toJson (m : Close) : Json :=
  .obj [("context", m.context.toJson), ("change_uuid", m.uuid.toJson)]

def ofJson? (j : Json) : Option Close := do
  let f ← j.fields? ["context", "change_uuid"]
  pure {
    context := ← f.required? "context" Context.ofJson?
    uuid := ← f.required? "change_uuid" Uuid.ofJson? }

end Close

namespace Force

def toJson (m : Force) : Json :=
  .obj [("context", m.context.toJson), ("change_uuid", m.uuid.toJson), ("target", m.target.toJson)]

def ofJson? (j : Json) : Option Force := do
  let f ← j.fields? ["context", "change_uuid", "target"]
  pure {
    context := ← f.required? "context" Context.ofJson?
    uuid := ← f.required? "change_uuid" Uuid.ofJson?
    target := ← f.required? "target" ChangeState.ofJson? }

end Force

namespace LineageEntry

def toJson (e : LineageEntry) : Json :=
  .obj [("uuid", e.uuid.toJson), ("version", .ofNat e.version), ("state", e.state.toJson),
    ("prev_change_uuid", ofOption Uuid.toJson e.previous)]

def ofJson? (j : Json) : Option LineageEntry := do
  let f ← j.fields? ["uuid", "version", "state", "prev_change_uuid"]
  pure {
    uuid := ← f.required? "uuid" Uuid.ofJson?
    version := ← f.required? "version" asWord64?
    state := ← f.required? "state" ChangeState.ofJson?
    previous := ← f.optional? "prev_change_uuid" Uuid.ofJson? }

end LineageEntry

namespace ChangeDetails

def toJson (d : ChangeDetails) : Json :=
  .obj [("uuid", d.uuid.toJson), ("state", d.state.toJson), ("version", .ofNat d.version),
    ("prev_change_uuid", ofOption Uuid.toJson d.previous), ("change", d.change.toJson),
    ("result", d.result.toJson), ("result_hash", .str d.resultHash),
    ("creation_host", .str d.host), ("creation_user", .str d.user),
    ("creation_timestamp", d.created.toJson)]

def ofJson? (j : Json) : Option ChangeDetails := do
  let f ← j.fields? ["uuid", "state", "version", "prev_change_uuid", "change", "result",
    "result_hash", "creation_host", "creation_user", "creation_timestamp"]
  pure {
    uuid := ← f.required? "uuid" Uuid.ofJson?
    state := ← f.required? "state" ChangeState.ofJson?
    version := ← f.required? "version" asWord64?
    previous := ← f.optional? "prev_change_uuid" Uuid.ofJson?
    change := ← f.required? "change" Change.ofJson?
    result := ← f.required? "result" Cluster.ofJson?
    resultHash := ← f.required? "result_hash" asString?
    host := ← f.required? "creation_host" asString?
    user := ← f.required? "creation_user" asString?
    created := ← f.required? "creation_timestamp" Timestamp.ofJson? }

end ChangeDetails

namespace Snapshot

def toJson (s : Snapshot) : Json :=
  .obj [("mode", s.mode.toJson), ("mutative_message_count", .ofNat s.count),
    ("last_mutation_host", ofOption .str s.lastHost),
    ("last_mutation_user", ofOption .str s.lastUser),
    ("last_mutation_timestamp", ofOption Timestamp.toJson s.lastTimestamp),
    ("current_version", .ofNat s.currentVersion), ("highest_version", .ofNat s.highestVersion),
    ("latest_change", ofOption ChangeDetails.toJson s.latest),
    ("lineage", .arr (s.lineage.map LineageEntry.toJson))]

def ofJson? (j : Json) : Option Snapshot := do
  let f ← j.fields? ["mode", "mutative_message_count", "last_mutation_host", "last_mutation_user",
    "last_mutation_timestamp", "current_version", "highest_version", "latest_change", "lineage"]
  pure {
    mode := ← f.required? "mode" Mode.ofJson?
    count := ← f.required? "mutative_message_count" asWord64?
    lastHost := ← f.optional? "last_mutation_host" asString?
    lastUser := ← f.optional? "last_mutation_user" asString?
    lastTimestamp := ← f.optional? "last_mutation_timestamp" Timestamp.ofJson?
    currentVersion := ← f.required? "current_version" asWord64?
    highestVersion := ← f.required? "highest_version" asWord64?
    latest := ← f.optional? "latest_change" ChangeDetails.ofJson?
    lineage := ← f.defaulted? "lineage" (listOf? LineageEntry.ofJson?) [] }

end Snapshot

namespace TopologyView

def toJson (v : TopologyView) : Json :=
  .obj [("upcoming", ofOption Cluster.toJson v.upcoming),
    ("runtime", ofOption Cluster.toJson v.runtime)]

def ofJson? (j : Json) : Option TopologyView := do
  let f ← j.fields? ["upcoming", "runtime"]
  pure {
    upcoming := ← f.optional? "upcoming" Cluster.ofJson?
    runtime := ← f.optional? "runtime" Cluster.ofJson? }

end TopologyView

namespace Reason

def toJson : Reason → Json
  | .concurrentChange inFlight =>
    .obj [("kind", .str "concurrent_change"), ("in_flight", ofOption Uuid.toJson inFlight)]
  | .staleVersion expected received =>
    .obj [("kind", .str "stale_version"), ("expected", .ofNat expected),
      ("received", .ofNat received)]
  | .validationFailed => .obj [("kind", .str "validation_failed")]
  | .dead expected actual =>
    .obj [("kind", .str "dead"), ("expected", .ofNat expected), ("actual", .ofNat actual)]
  | .notPrepared => .obj [("kind", .str "not_prepared")]
  | .uuidMismatch prepared =>
    .obj [("kind", .str "uuid_mismatch"), ("prepared", ofOption Uuid.toJson prepared)]
  | .unknownChange => .obj [("kind", .str "unknown_change")]
  | .applyFailed => .obj [("kind", .str "apply_failed")]
  | .invalidTarget => .obj [("kind", .str "invalid_target")]
  | .storage => .obj [("kind", .str "storage")]

/-- A kind without content may have any members besides its tag, but as an array
nothing follows the tag. -/
def plain? (reason : Reason) : Json → Option Reason
  | .arr (_ :: _) => none
  | _ => some reason

def ofJson? (j : Json) : Option Reason := do
  let (tag, body) ← j.tagged? "kind"
  match ← tag.asString? with
  | "concurrent_change" =>
    let f ← body.fields? ["in_flight"]
    pure (.concurrentChange (← f.optional? "in_flight" Uuid.ofJson?))
  | "stale_version" =>
    let f ← body.fields? ["expected", "received"]
    pure (.staleVersion (← f.required? "expected" asWord64?) (← f.required? "received" asWord64?))
  | "validation_failed" => plain? .validationFailed body
  | "dead" =>
    let f ← body.fields? ["expected", "actual"]
    pure (.dead (← f.required? "expected" asWord64?) (← f.required? "actual" asWord64?))
  | "not_prepared" => plain? .notPrepared body
  | "uuid_mismatch" =>
    let f ← body.fields? ["prepared"]
    pure (.uuidMismatch (← f.optional? "prepared" Uuid.ofJson?))
  | "unknown_change" => plain? .unknownChange body
  | "apply_failed" => plain? .applyFailed body
  | "invalid_target" => plain? .invalidTarget body
  | "storage" => plain? .storage body
  | _ => none

end Reason

namespace Rejection

def toJson (r : Rejection) : Json :=
  .obj [("reason", r.reason.toJson), ("message", .str r.message),
    ("last_mutation_host", ofOption .str r.lastHost),
    ("last_mutation_user", ofOption .str r.lastUser)]

def ofJson? (j : Json) : Option Rejection := do
  let f ← j.fields? ["reason", "message", "last_mutation_host", "last_mutation_user"]
  pure {
    reason := ← f.required? "reason" Reason.ofJson?
    message := ← f.required? "message" asString?
    lastHost := ← f.optional? "last_mutation_host" asString?
    lastUser := ← f.optional? "last_mutation_user" asString? }

end Rejection

structure AnswerBody where
  accepted : Bool
  rejection : Option Rejection
deriving DecidableEq

/-- The message of a phase. Nodes are only asked in the phase of discovery. -/
def Message.ofJson? (phase : Phase) (j : Json) : Option Message :=
  match phase with
  | .discover => none
  | .prepare => (Prepare.ofJson? j).map .prepare
  | .commit => (Close.ofJson? j).map .commit
  | .rollback => (Close.ofJson? j).map .rollback
  | .force => (Force.ofJson? j).map .force

namespace AnswerBody

def ofAnswer : Answer → AnswerBody
  | .ok () => ⟨true, none⟩
  | .error rejection => ⟨false, some rejection⟩

/-- A refusal that gives no reason counts as one of the node's storage. -/
def toAnswer : AnswerBody → Answer
  | ⟨true, _⟩ => .ok ()
  | ⟨false, some rejection⟩ => .error rejection
  | ⟨false, none⟩ => .error (.plain .storage "rejected without a reason")

def toJson (b : AnswerBody) : Json :=
  match b.rejection with
  | none => .obj [("accepted", .bool b.accepted)]
  | some rejection => .obj [("accepted", .bool b.accepted), ("rejection", rejection.toJson)]

def ofJson? (j : Json) : Option AnswerBody := do
  let f ← j.fields? ["accepted", "rejection"]
  pure {
    accepted := ← f.required? "accepted" asBool?
    rejection := ← f.defaulted? "rejection" (nullable? Rejection.ofJson?) none }

@[simp] theorem toAnswer_ofAnswer (a : Answer) : (ofAnswer a).toAnswer = a := by
  cases a <;> rfl

end AnswerBody
def CallError.ofJson? (j : Json) : Option CallError :=
  match j.get "kind" with
  | .str "timeout" => some .timeout
  | .str "unreachable" => (j.get "message").asString?.map .unreachable
  | .str "rejected" => (Rejection.ofJson? (j.get "rejection")).map .rejected
  | _ => none

def NodeFailure.ofJson? (j : Json) : Option NodeFailure := do
  pure ⟨← Address.ofJson? (j.get "address"), ← Phase.ofText? (← (j.get "phase").asString?),
    ← CallError.ofJson? (j.get "error")⟩

end Reconfig
