/-
Whether the text of what a node shows can be read.

A change lies one level deep in the message that brings it and two levels deep in what the node
shows of it afterwards. The reader of the message allows for the first level only, so a node can
accept a change and then show a text that nobody can read. Nothing else that a node shows is ever
in the way: its numbers are words, its times have written forms, and its topology is shallow.
-/
import Reconfig.Proofs.Participant.Availability
import Reconfig.Proofs.Protocol.Written
import Reconfig.Proofs.Topology.Batches
import Reconfig.Proofs.Topology.Nesting

namespace Reconfig

open Json

/-! ## How deeply messages and snapshots nest -/

/-- The change of a message nests less deeply than the message, if it is written as it was
given. -/
theorem Prepare.depth_change_le {document : Json} {m : Prepare}
    (read : ofJson? document = some m) : m.change.toJson.depth ≤ document.depth := by
  obtain ⟨f, fields, read⟩ := Option.bind_eq_some_iff.1 read
  obtain ⟨context, -, read⟩ := Option.bind_eq_some_iff.1 read
  obtain ⟨uuid, -, read⟩ := Option.bind_eq_some_iff.1 read
  obtain ⟨version, -, read⟩ := Option.bind_eq_some_iff.1 read
  obtain ⟨change, given, read⟩ := Option.bind_eq_some_iff.1 read
  cases read
  exact depth_of_required? Change.staysShallow fields given

theorem Prepare.depth_toJson (m : Prepare) :
    m.toJson.depth = max m.change.toJson.depth 1 + 1 := by
  simp only [toJson, depth, membersDepth, Context.toJson, Uuid.toJson, Json.ofNat]
  omega

theorem LineageEntry.depth_toJson (e : LineageEntry) : e.toJson.depth = 1 := by
  have previous := depth_ofOption (f := Uuid.toJson) (fun _ => rfl) e.previous
  simp only [toJson, depth, membersDepth, Uuid.toJson, ChangeState.toJson, Json.ofNat] at previous ⊢
  omega

/-- Only the change of a request may nest more deeply than its topology. -/
theorem ChangeDetails.depth_toJson_le_iff {d : ChangeDetails} {n : Nat} (topology : 7 ≤ n) :
    d.toJson.depth ≤ n ↔ d.change.toJson.depth + 1 ≤ n := by
  have result := d.result.depth_toJson_le
  have previous := depth_ofOption (f := Uuid.toJson) (fun _ => rfl) d.previous
  simp only [toJson, depth, membersDepth, Uuid.toJson, ChangeState.toJson, Json.ofNat,
    Timestamp.toJson] at previous ⊢
  omega

/-- Only the change of the latest request may nest deeply in a snapshot. -/
theorem Snapshot.depth_toJson_le_iff {s : Snapshot} {n : Nat} (topology : 8 ≤ n) :
    s.toJson.depth ≤ n ↔ ∀ d, s.latest = some d → d.change.toJson.depth + 2 ≤ n := by
  have lineage : (Json.arr (s.lineage.map LineageEntry.toJson)).depth ≤ 2 :=
    depth_array_le (fun e => Nat.le_of_eq e.depth_toJson) s.lineage
  have latest : (ofOption ChangeDetails.toJson s.latest).depth + 1 ≤ n ↔
      ∀ d, s.latest = some d → d.change.toJson.depth + 2 ≤ n := by
    obtain ⟨n, rfl⟩ : ∃ k, n = k + 1 := ⟨n - 1, by omega⟩
    cases s.latest with
    | none => simp [ofOption, depth]
    | some d =>
      have details := d.depth_toJson_le_iff (n := n) (by omega)
      simp only [ofOption, Option.some.injEq, forall_eq']
      omega
  rw [← latest]
  have host := depth_ofOption (f := .str) (fun _ => rfl) s.lastHost
  have user := depth_ofOption (f := .str) (fun _ => rfl) s.lastUser
  have time := depth_ofOption (f := Timestamp.toJson) (fun _ => rfl) s.lastTimestamp
  simp only [toJson, depth, membersDepth, Mode.toJson, Json.ofNat] at lineage ⊢
  omega

/-! ## What a node shows -/

namespace History

variable {limits : Limits} {h : History}

theorem Sound.version_le (sound : Sound limits h) : ∀ d ∈ h, d.version ≤ h.length := by
  induction sound with
  | nil => simp
  | @cons d below _ _ _ version _ _ _ ih =>
    have count : below.version ≤ below.length := List.length_filter_le _ _
    refine List.forall_mem_cons.2 ⟨?_, fun e mem => Nat.le_succ_of_le (ih e mem)⟩
    rw [version, List.length_cons]
    omega

end History

namespace Participant

variable {p : Participant} {h h' : History} {limits : Limits} {accepted : List Prepare}
  {state : NodeState} {now : Timestamp}

/-- The numbers and times that a node shows can be written. -/
theorem Settled.fits (settled : Settled limits accepted p h) (read : p.state = .ok state)
    (stamped : ∀ t, state.lastTimestamp = some t → t.Storable) : (state.snapshot h).Fits := by
  have tells := tells_of_state settled.keeps read
  have messages := History.messages_lt settled.room
  have word : Text.word64 = 2 ^ 64 := rfl
  have limit : chainLimit = 1000000 := rfl
  have room := settled.room
  have version := h.version_le_messages
  have versions : ∀ d ∈ h, d.version < Text.word64 := by
    intro d mem
    have := settled.sound.version_le d mem
    omega
  have newest : h.highest < Text.word64 := by
    cases h with
    | nil => exact Nat.two_pow_pos 64
    | cons d below => exact versions d List.mem_cons_self
  exact {
    count := by
      rw [NodeState.snapshot, tells.count]
      exact messages
    lastTimestamp := stamped
    currentVersion := by
      rw [NodeState.snapshot, tells.currentVersion]
      exact Nat.lt_of_le_of_lt version messages
    highestVersion := by
      rw [NodeState.snapshot, tells.highestVersion]
      exact newest
    latest := fun d held => by
      have mem : d ∈ h := List.mem_of_mem_head? held
      exact ⟨versions d mem, settled.created d mem⟩
    lineage := fun e listed => by
      obtain ⟨d, mem, rfl⟩ := List.mem_map.1 listed
      exact versions d mem }

/-- A node that has just accepted a message shows when it did. -/
theorem Settled.stamped_of_ok (settled : Settled limits accepted p h) {m : Message}
    (storable : now.Storable) (taken : (p.handle m now).2 = .ok ())
    (read : (p.handle m now).1.state = .ok state) : state.lastTimestamp = some now := by
  have handled := Participant.handled settled.keeps (settled.limits ▸ settled.sound) m now
  rw [taken] at handled
  cases handled with
  | accepted accepts keeps committed stamp =>
    have time : (p.handle m now).1.space.lastTimestamp = .ok (some now) := by
      rw [KeySpace.lastTimestamp, stamp, readOptional, readTimestamp,
        Timestamp.parseStrict?_storedText storable]
      rfl
    rw [Participant.state, keeps.nodeState_eq, time] at read
    cases read
    rfl

/-- The text of what a node shows after it has accepted a change is read back unless the change
nests too deeply for it, and the node shows nothing at all once its chain of requests is too long.
A message that leaves two levels unused never brings a change that nests too deeply. -/
theorem Lived.shown_of_prepare (lived : Lived limits accepted p) (storable : now.Storable)
    {text : String} {m : Prepare} (read : (parse? text).bind Prepare.ofJson? = some m)
    (taken : (p.handle (.prepare m) now).2 = .ok ()) :
    (accepted.length < chainLimit → ∃ s, (p.handle (.prepare m) now).1.discover = .ok s ∧
      (parse? s.toJson.text).bind Snapshot.ofJson? =
        if m.change.toJson.depth + 2 ≤ depthLimit then some s else none) ∧
    (chainLimit ≤ accepted.length →
      (p.handle (.prepare m) now).1.discover = .error (.corrupted "change chain loops")) ∧
    ∀ document, parse? text = some document → document.depth + 2 ≤ depthLimit →
      m.change.toJson.depth + 2 ≤ depthLimit := by
  obtain ⟨h, settled⟩ := lived.settled
  obtain ⟨h', settled', ⟨-, accepts⟩ | ⟨⟨r, refused⟩, -⟩⟩ := settled.handle (.prepare m) storable
  · obtain ⟨result, -, -, -, -, -, rfl⟩ := accepts.of_prepare
    obtain ⟨state, known, tells⟩ := settled'.state_eq_ok
    have shown := settled'.discover_eq known
    have stamp := settled.stamped_of_ok storable taken known
    rw [List.length_cons, settled.length_eq] at shown
    refine ⟨fun short => ⟨_, shown.trans (if_pos short), ?_⟩,
      fun long => shown.trans (if_neg (Nat.not_le.2 (Nat.lt_succ_of_le long))), ?_⟩
    · have fits := settled'.fits known fun t same => by
        cases stamp.symm.trans same
        exact storable
      have depth : (state.snapshot (h.request m result now :: h)).toJson.depth ≤ depthLimit ↔
          m.change.toJson.depth + 2 ≤ depthLimit := by
        rw [Snapshot.depth_toJson_le_iff (by decide)]
        refine ⟨fun each => each _ rfl, fun change d held => ?_⟩
        cases held
        exact change
      have survives := (Snapshot.kept fits).survivesText
      rw [SurvivesText] at survives
      simp only [survives, depth]
    · intro document parsed room
      rw [parsed] at read
      have inside := Prepare.depth_change_le read
      omega
  · cases taken.symm.trans refused

end Participant

/-! ## A change in batches -/

namespace Change

/-- The change in a batch, in a batch and so on. -/
def inBatches (c : Change) : Nat → Change
  | 0 => c
  | n + 1 => .batch [c.inBatches n]

theorem depth_batch (changes : List Change) :
    (batch changes).toJson.depth = itemsDepth (toJsonAll changes) + 2 := by
  simp only [toJson, Json.depth, membersDepth]
  omega

theorem depth_inBatches (c : Change) (n : Nat) :
    (c.inBatches n).toJson.depth = c.toJson.depth + 2 * n := by
  induction n with
  | zero => rfl
  | succ n ih =>
    rw [inBatches, depth_batch, toJsonAll, toJsonAll, itemsDepth, itemsDepth, ih]
    omega

theorem apply_inBatches (c : Change) (current : Option Cluster) (n : Nat) :
    (c.inBatches n).apply current = c.apply current := by
  induction n with
  | zero => rfl
  | succ n ih =>
    rw [inBatches, apply_batch_singleton, ih]

end Change

namespace Participant

/-- A setting, in batches, that comes with the founding of its cluster. -/
def layeredChange (n : Nat) : Change :=
  .batch [founding, (Change.setting .set .cluster "k" (some "v")).inBatches n]

/-- The first message to a new node. -/
def layeredPrepare (n : Nat) : Prepare :=
  ⟨⟨0, "east", "ops"⟩, ⟨.replicate 32 1⟩, 1, layeredChange n⟩

theorem depth_layeredChange {n : Nat} (several : 3 ≤ n) :
    (layeredChange n).toJson.depth = 2 * n + 4 := by
  have founding : founding.toJson.depth = 7 := rfl
  have setting : (Change.setting .set .cluster "k" (some "v")).toJson.depth = 2 := rfl
  rw [layeredChange, Change.depth_batch]
  simp only [Change.toJsonAll, itemsDepth, founding, Change.depth_inBatches, setting]
  omega

theorem accepts_layered (n : Nat) : ∃ result,
    History.Accepts ⟨none⟩ [] (.prepare (layeredPrepare n)) noon
      [History.request [] (layeredPrepare n) result noon] := by
  refine ⟨{ foundedCluster with settings := Dict.empty.insert "k" "v" }, ?_⟩
  refine .prepare rfl rfl rfl (by simp) (Change.validate_eq_ok.2 ⟨?_, rfl, rfl⟩)
  rw [show (layeredPrepare n).change = layeredChange n from rfl, layeredChange, Change.apply,
    Change.applyAll, show founding.apply (History.topology []) = .ok foundedCluster from rfl]
  simp only [Outcome.ok_bind, Change.applyAll, Change.apply_inBatches]
  rfl

/-- The node takes a setting in so many batches, and then shows this. -/
structure ShowsLayered (p : Participant) (n : Nat) (s : Snapshot) : Prop where
  read : (parse? (layeredPrepare n).toJson.text).bind Prepare.ofJson? = some (layeredPrepare n)
  taken : (p.handle (.prepare (layeredPrepare n)) noon).2 = .ok ()
  discovered : (p.handle (.prepare (layeredPrepare n)) noon).1.discover = .ok s

/-- A node accepts a change in sixty batches and shows it, and accepts one in sixty-one and then
shows a text that is not read back. -/
theorem layered_shown : ∃ p, start "n" .empty (.new ⟨none⟩ []) = .ok p ∧
    (∃ s, p.ShowsLayered 60 s ∧ (parse? s.toJson.text).bind Snapshot.ofJson? = some s) ∧
    ∃ s, p.ShowsLayered 61 s ∧ (parse? s.toJson.text).bind Snapshot.ofJson? = none := by
  have lived : Lived ⟨none⟩ [] (blank "n") := .started .memory rfl (start_blank "n")
  have limit : depthLimit = 127 := rfl
  have shown : ∀ n, 3 ≤ n → n ≤ 61 → ∃ s, (blank "n").ShowsLayered n s ∧
      (parse? s.toJson.text).bind Snapshot.ofJson? = if n ≤ 60 then some s else none := by
    intro n several few
    have change : (layeredPrepare n).change.toJson.depth = 2 * n + 4 := depth_layeredChange several
    have zero : 0 < Text.word64 := by decide
    have one : 1 < Text.word64 := by decide
    have read := (Prepare.kept (m := layeredPrepare n) ⟨zero, one⟩).survivesText.shallow
      (by rw [Prepare.depth_toJson]; omega)
    obtain ⟨result, accepts⟩ := accepts_layered n
    obtain ⟨taken, -⟩ := (unhindered_blank "n").handle accepts (Nat.zero_le _) (by decide)
    obtain ⟨short, -⟩ := lived.shown_of_prepare (by decide) read taken
    obtain ⟨s, discovered, survives⟩ := short (by decide)
    have room : 2 * n + 4 + 2 ≤ depthLimit ↔ n ≤ 60 := by omega
    simp only [change, room] at survives
    exact ⟨s, ⟨read, taken, discovered⟩, survives⟩
  exact ⟨blank "n", start_blank "n", shown 60 (by decide) (by decide),
    shown 61 (by decide) (by decide)⟩

end Participant
end Reconfig
