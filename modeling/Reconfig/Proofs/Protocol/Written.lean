/-
Messages, snapshots and answers are read back from the documents that are written of them.

Their numbers are words of 64 bits, and their points in time have a written form.
-/
import Reconfig.Proofs.Time.DocumentText
import Reconfig.Proofs.Topology.Written
import Reconfig.Proofs.Uuid
import Reconfig.Protocol.Wire

namespace Reconfig

open Json

theorem Json.asWord64?_ofNat {n : Nat} (fits : n < Text.word64) :
    asWord64? (.ofNat n) = some n := by
  simp [asWord64?, asNat?, Json.ofNat, fits]

theorem Json.plain_ofOption {α : Type} {write : α → Json} {a : Option α}
    (each : ∀ b, a = some b → (write b).Plain) : (ofOption write a).Plain := by
  cases a with
  | none => trivial
  | some b => exact each b rfl

namespace Uuid

theorem ofJson?_toJson (u : Uuid) : ofJson? u.toJson = some u := by
  simp [ofJson?, toJson, asString?, parse?_text]

theorem nullable_toJson (u : Option Uuid) : nullable? ofJson? (ofOption toJson u) = some u :=
  nullable?_ofOption (by simp [toJson]) fun b _ => b.ofJson?_toJson

theorem plain_ofOption (u : Option Uuid) : (ofOption toJson u).Plain :=
  Json.plain_ofOption fun _ _ => trivial

end Uuid

namespace Json

theorem nullable_str (s : Option String) : nullable? asString? (ofOption .str s) = some s :=
  nullable?_ofOption (by simp) fun _ _ => rfl

theorem plain_ofOption_str (s : Option String) : (ofOption .str s).Plain :=
  plain_ofOption fun _ _ => trivial

end Json

theorem Timestamp.ofJson?_toJson {t : Timestamp} (storable : t.Storable) :
    ofJson? t.toJson = some t := by
  simp [ofJson?, toJson, asString?, parseLoose?_documentText storable]

theorem Mode.ofJson?_toJson (mode : Mode) : ofJson? mode.toJson = some mode := by
  simp [ofJson?, toJson, variantName?]

theorem ChangeState.ofJson?_toJson (state : ChangeState) : ofJson? state.toJson = some state := by
  simp [ofJson?, toJson, variantName?]

/-! ## Messages -/

/-- The fence is a word of 64 bits. -/
def Context.Fits (c : Context) : Prop := c.expected < Text.word64

theorem Context.kept {c : Context} (fits : c.Fits) : Kept toJson ofJson? c where
  plain := ⟨plain_ofNat fits, trivial, trivial, trivial⟩
  back := by
    rw [toJson, ofJson?, fields?_obj _ (by simp)]
    simp [asString?, asWord64?_ofNat fits]

/-- The numbers are words of 64 bits. -/
structure Prepare.Fits (m : Prepare) : Prop where
  context : m.context.Fits
  version : m.version < Text.word64

theorem Prepare.kept {m : Prepare} (fits : m.Fits) : Kept toJson ofJson? m where
  plain := ⟨(Context.kept fits.context).plain, trivial, plain_ofNat fits.version,
    m.change.plain_toJson, trivial⟩
  back := by
    rw [toJson, ofJson?, fields?_obj _ (by simp)]
    simp [(Context.kept fits.context).back, Uuid.ofJson?_toJson, asWord64?_ofNat fits.version,
      Change.ofJson?_toJson]

theorem Close.kept {m : Close} (fits : m.context.Fits) : Kept toJson ofJson? m where
  plain := ⟨(Context.kept fits).plain, trivial, trivial⟩
  back := by
    rw [toJson, ofJson?, fields?_obj _ (by simp)]
    simp [(Context.kept fits).back, Uuid.ofJson?_toJson]

theorem Force.kept {m : Force} (fits : m.context.Fits) : Kept toJson ofJson? m where
  plain := ⟨(Context.kept fits).plain, trivial, trivial, trivial⟩
  back := by
    rw [toJson, ofJson?, fields?_obj _ (by simp)]
    simp [(Context.kept fits).back, Uuid.ofJson?_toJson, ChangeState.ofJson?_toJson]

/-! ## Snapshots -/

theorem LineageEntry.kept {e : LineageEntry} (fits : e.version < Text.word64) :
    Kept toJson ofJson? e where
  plain := ⟨trivial, plain_ofNat fits, trivial, Uuid.plain_ofOption e.previous, trivial⟩
  back := by
    rw [toJson, ofJson?, fields?_obj _ (by simp)]
    simp [Uuid.ofJson?_toJson, asWord64?_ofNat fits, ChangeState.ofJson?_toJson,
      Uuid.nullable_toJson]

/-- The version is a word of 64 bits, and the time has a written form. -/
structure ChangeDetails.Fits (d : ChangeDetails) : Prop where
  version : d.version < Text.word64
  created : d.created.Storable

theorem ChangeDetails.kept {d : ChangeDetails} (fits : d.Fits) : Kept toJson ofJson? d where
  plain := ⟨trivial, trivial, plain_ofNat fits.version, Uuid.plain_ofOption d.previous,
    d.change.plain_toJson, d.result.plain_toJson, trivial, trivial, trivial, trivial, trivial⟩
  back := by
    rw [toJson, ofJson?, fields?_obj _ (by simp)]
    simp [asString?, Uuid.ofJson?_toJson, asWord64?_ofNat fits.version, ChangeState.ofJson?_toJson,
      Uuid.nullable_toJson, Change.ofJson?_toJson, Cluster.ofJson?_toJson,
      Timestamp.ofJson?_toJson fits.created]

/-- The numbers are words of 64 bits, and the times have written forms. -/
structure Snapshot.Fits (s : Snapshot) : Prop where
  count : s.count < Text.word64
  lastTimestamp : ∀ t, s.lastTimestamp = some t → t.Storable
  currentVersion : s.currentVersion < Text.word64
  highestVersion : s.highestVersion < Text.word64
  latest : ∀ d, s.latest = some d → d.Fits
  lineage : ∀ e ∈ s.lineage, e.version < Text.word64

theorem Snapshot.kept {s : Snapshot} (fits : s.Fits) : Kept toJson ofJson? s where
  plain := by
    refine ⟨trivial, plain_ofNat fits.count, plain_ofOption_str s.lastHost,
      plain_ofOption_str s.lastUser, Json.plain_ofOption fun _ _ => trivial,
      plain_ofNat fits.currentVersion, plain_ofNat fits.highestVersion,
      Json.plain_ofOption fun d held => (ChangeDetails.kept (fits.latest d held)).plain,
      plainItems_iff.2 fun item mem => ?_, trivial⟩
    obtain ⟨e, listed, rfl⟩ := List.mem_map.1 mem
    exact (LineageEntry.kept (fits.lineage e listed)).plain
  back := by
    have time : nullable? Timestamp.ofJson? (ofOption Timestamp.toJson s.lastTimestamp) =
        some s.lastTimestamp :=
      nullable?_ofOption (by simp [Timestamp.toJson]) fun t shown =>
        Timestamp.ofJson?_toJson (fits.lastTimestamp t shown)
    have latest : nullable? ChangeDetails.ofJson? (ofOption ChangeDetails.toJson s.latest) =
        some s.latest :=
      nullable?_ofOption (by simp [ChangeDetails.toJson]) fun d held =>
        (ChangeDetails.kept (fits.latest d held)).back
    have lineage : listOf? LineageEntry.ofJson? (.arr (s.lineage.map LineageEntry.toJson)) =
        some s.lineage :=
      listOf?_map fun e mem => (LineageEntry.kept (fits.lineage e mem)).back
    rw [toJson, ofJson?, fields?_obj _ (by simp)]
    simp [Mode.ofJson?_toJson, asWord64?_ofNat fits.count, asWord64?_ofNat fits.currentVersion,
      asWord64?_ofNat fits.highestVersion, nullable_str, time, latest, lineage]

theorem TopologyView.kept (v : TopologyView) : Kept toJson ofJson? v where
  plain := ⟨Json.plain_ofOption fun c _ => c.plain_toJson,
    Json.plain_ofOption fun c _ => c.plain_toJson, trivial⟩
  back := by
    have cluster : ∀ c : Option Cluster,
        nullable? Cluster.ofJson? (ofOption Cluster.toJson c) = some c := fun _ =>
      nullable?_ofOption (by simp [Cluster.toJson]) fun c _ => c.ofJson?_toJson
    rw [toJson, ofJson?, fields?_obj _ (by simp)]
    simp [cluster]

/-! ## Answers -/

/-- The numbers are words of 64 bits. -/
def Reason.Fits : Reason → Prop
  | .staleVersion expected received => expected < Text.word64 ∧ received < Text.word64
  | .dead expected actual => expected < Text.word64 ∧ actual < Text.word64
  | _ => True

theorem Reason.kept {r : Reason} (fits : r.Fits) : Kept toJson ofJson? r where
  plain := by
    cases r with
    | concurrentChange inFlight => exact ⟨trivial, Uuid.plain_ofOption inFlight, trivial⟩
    | staleVersion => exact ⟨trivial, plain_ofNat fits.1, plain_ofNat fits.2, trivial⟩
    | dead => exact ⟨trivial, plain_ofNat fits.1, plain_ofNat fits.2, trivial⟩
    | uuidMismatch prepared => exact ⟨trivial, Uuid.plain_ofOption prepared, trivial⟩
    | _ => exact ⟨trivial, trivial⟩
  back := by
    cases r with
    | concurrentChange inFlight =>
      rw [toJson, ofJson?, tagged?_cons _ (by simp)]
      simp [asString?, fields?_obj, Uuid.nullable_toJson]
    | staleVersion =>
      rw [toJson, ofJson?, tagged?_cons _ (by simp)]
      simp [asString?, fields?_obj, asWord64?_ofNat fits.1, asWord64?_ofNat fits.2]
    | dead =>
      rw [toJson, ofJson?, tagged?_cons _ (by simp)]
      simp [asString?, fields?_obj, asWord64?_ofNat fits.1, asWord64?_ofNat fits.2]
    | uuidMismatch prepared =>
      rw [toJson, ofJson?, tagged?_cons _ (by simp)]
      simp [asString?, fields?_obj, Uuid.nullable_toJson]
    | _ => rfl

theorem Rejection.kept {r : Rejection} (fits : r.reason.Fits) : Kept toJson ofJson? r where
  plain := ⟨(Reason.kept fits).plain, trivial, plain_ofOption_str r.lastHost,
    plain_ofOption_str r.lastUser, trivial⟩
  back := by
    rw [toJson, ofJson?, fields?_obj _ (by simp)]
    simp [asString?, (Reason.kept fits).back, nullable_str]

/-- The numbers of the rejection, if there is one, are words of 64 bits. -/
def AnswerBody.Fits (b : AnswerBody) : Prop := ∀ r, b.rejection = some r → r.reason.Fits

theorem AnswerBody.kept {b : AnswerBody} (fits : b.Fits) : Kept toJson ofJson? b := by
  obtain ⟨accepted, rejection⟩ := b
  cases rejection with
  | none => exact ⟨⟨trivial, trivial⟩, rfl⟩
  | some r =>
    have kept := Rejection.kept (fits r rfl)
    have rejection : nullable? Rejection.ofJson? r.toJson = some (some r) :=
      nullable?_ofOption (a := some r) (by simp [Rejection.toJson]) fun _ same => same ▸ kept.back
    refine ⟨⟨trivial, kept.plain, trivial⟩, ?_⟩
    rw [toJson, ofJson?, fields?_obj _ (by simp)]
    simp [asBool?, rejection]

end Reconfig
