/-
A node that activates itself.

A new node that is to take its topology from a file sends itself a prepare and a commit
message. With the first start that makes three change-sets, and each of them goes into a
frame of the log that is its own. If one of them is too long for a frame, the start fails
there, and the frames before it stay.
-/
import Reconfig.Proofs.Participant.Availability
import Reconfig.Proofs.Participant.Restart
import Reconfig.Service.Startup

namespace Reconfig

open Participant (Settled newState)

theorem Change.validate_activation {c : Cluster} {limits : Limits} :
    (Change.activation c).validate none limits = .ok c ↔
      c.checkStructure = .ok () ∧ c.checkCapacity limits = .ok () := by
  rw [Change.validate_eq_ok]
  exact and_iff_right rfl

theorem Change.depth_activation_le (c : Cluster) :
    (Change.activation c).depth ≤ Change.depthLimit := by
  have document := (Change.activation c).toJson.depth_canonical_le
  have cluster := c.depth_toJson_le
  have limit : Change.depthLimit = 120 := rfl
  rw [Change.depth]
  simp only [Change.toJson, Json.depth, Json.membersDepth] at document ⊢
  omega

/-- Whether a log takes a change-set is a question of its length only. -/
theorem Store.commit_recordAll (cs : List ChangeSet) {c : ChangeSet} (filled : c.isEmpty = false) :
    (Store.log (ChangeLog.empty.recordAll cs)).commit c =
      if c.toJson.bytes.length ≤ Frame.payloadLimit then
        .ok (.log (ChangeLog.empty.recordAll (cs ++ [c])))
      else .error (ChangeLog.Fault.oversized c.toJson.bytes.length).toError := by
  by_cases small : c.toJson.bytes.length ≤ Frame.payloadLimit
  · rw [if_pos small, ChangeLog.recordAll_append]
    exact commit_log_eq_ok.2 ⟨_, ChangeLog.commit_eq_ok.2 (.inr ⟨filled, small, rfl⟩), rfl⟩
  · rw [if_neg small]
    exact commit_eq_error.2 ⟨_, rfl, filled, Nat.not_le.1 small, rfl⟩

/-- The writes of a message make a frame that can be read if it is not too long. -/
theorem ChangeSet.Notes.framed {changes : ChangeSet} {limits : Limits} {d : ChangeDetails}
    {below : History} (notes : changes.Notes (d :: below))
    (sound : History.Sound limits (d :: below)) (counted : History.messages (d :: below) < 2 ^ 64)
    (shallow : d.change.depth ≤ Change.depthLimit)
    (small : changes.toJson.bytes.length ≤ Frame.payloadLimit) : changes.Framed :=
  ⟨notes.filled, small,
    (readsBack_iff (notes.stored sound counted)).2 (notes.depth_le_iff.2 shallow)⟩

namespace StartupOptions

variable (o : StartupOptions) (c : Cluster) (now : Timestamp)

/-! ## The messages and what they write -/

def context (expected : Nat) : Context := ⟨expected, o.sender.host, o.sender.user⟩

def prepare : Prepare := ⟨o.context 0, o.uuid, 1, .activation c⟩

def commit : Close := ⟨o.context 1, o.uuid⟩

/-- The request that the first message makes. -/
def request : ChangeDetails := History.request [] (o.prepare c) c now

def prepareWrites : ChangeSet := Participant.prepareWrites newState (o.prepare c) c now

def commitWrites : ChangeSet :=
  Participant.closeWrites { newState with count := 1 } (o.context 1) o.uuid
    (o.request c now).toRecord 1 .commit now

/-- One change-set for the first start, and one for each message. -/
def writes : List ChangeSet :=
  [NodeState.initialWrites, o.prepareWrites c now, o.commitWrites c now]

/-- The history of the node with so many change-sets in its log. -/
def history : Nat → History
  | 0 | 1 => []
  | 2 => [o.request c now]
  | _ => [(o.request c now).inState .committed]

/-- The node with the given change-sets in its log. -/
def node (cs : List ChangeSet) (runtime : Option Cluster) : Participant :=
  ⟨o.name, .log (ChangeLog.empty.recordAll cs), ⟨o.limits, runtime, []⟩⟩

/-- The node after its first start. -/
def fresh : Participant := o.node [NodeState.initialWrites] none

/-- The node between the two messages. -/
def holding : Participant := o.node [NodeState.initialWrites, o.prepareWrites c now] none

/-- The node after both messages. -/
def activated : Participant :=
  o.node [NodeState.initialWrites, o.prepareWrites c now, o.commitWrites c now] (some c)

variable {o : StartupOptions} {c : Cluster} {now : Timestamp}

theorem length_history_le (k : Nat) : (o.history c now k).length ≤ 1 := by
  unfold history
  split <;> simp

/-! ## The node from step to step -/

theorem start_fresh (o : StartupOptions) :
    Participant.start o.name (.log .empty) (.new o.limits []) = .ok o.fresh := by
  rw [Participant.start, (Participant.start_eq_ok (Participant.start_logged o.name)).1]
  rfl

theorem settled_fresh (o : StartupOptions) : Settled o.limits [] o.fresh [] :=
  .of_start (.log (ChangeLog.replay_of_end (.inl rfl))) o.start_fresh

/-- A new node takes the message unless its log does not. -/
theorem handle_prepare (formed : c.checkStructure = .ok ())
    (afforded : c.checkCapacity o.limits = .ok ()) :
    o.fresh.handle (.prepare (o.prepare c)) now =
      if (o.prepareWrites c now).toJson.bytes.length ≤ Frame.payloadLimit then
        (o.holding c now, .ok ())
      else (o.fresh, .error (Participant.rejectionOfError
        (ChangeLog.Fault.oversized (o.prepareWrites c now).toJson.bytes.length).toError)) := by
  have read : o.fresh.state = .ok newState := rfl
  have validated : o.fresh.processor.validate none (o.prepare c).change = .ok c :=
    Outcome.mapError_eq_ok.2 (Change.validate_activation.2 ⟨formed, afforded⟩)
  have checked : o.fresh.checkPrepare newState (o.prepare c) = .ok c :=
    Participant.checkPrepare_eq_ok.2 ⟨rfl, rfl, rfl,
      o.settled_fresh.keeps.request?_of_absent (by simp), none, rfl, validated⟩
  have written :
      o.fresh.store.commit (Participant.prepareWrites newState (o.prepare c) c now) = _ :=
    Store.commit_recordAll [NodeState.initialWrites] (c := o.prepareWrites c now) rfl
  rw [prepareWrites] at written
  by_cases small : (o.prepareWrites c now).toJson.bytes.length ≤ Frame.payloadLimit
  · rw [if_pos small]
    rw [prepareWrites] at small
    simp only [Participant.handle, read, Participant.attempt, Participant.prepare, checked, written,
      if_pos small]
    rfl
  · rw [if_neg small]
    rw [prepareWrites] at small
    simp only [Participant.handle, read, Participant.attempt, Participant.prepare, checked, written,
      if_neg small]
    rfl

theorem settled_holding (formed : c.checkStructure = .ok ())
    (afforded : c.checkCapacity o.limits = .ok ()) (storable : now.Storable)
    (small : (o.prepareWrites c now).toJson.bytes.length ≤ Frame.payloadLimit) :
    Settled o.limits [o.prepare c] (o.holding c now) [o.request c now] := by
  obtain ⟨h, settled, outcome⟩ := o.settled_fresh.handle (.prepare (o.prepare c)) storable
  rw [handle_prepare formed afforded, if_pos small] at settled outcome
  obtain ⟨-, accepts⟩ | ⟨⟨r, refused⟩, -⟩ := outcome
  · obtain ⟨result, -, -, -, -, valid, rfl⟩ := accepts.of_prepare
    have valid : (Change.activation c).validate none o.limits = .ok result := valid
    rw [Change.validate_activation.2 ⟨formed, afforded⟩] at valid
    cases valid
    exact settled
  · cases refused

/-- A node that holds the change takes the message to commit it unless its log does not. The
topology is in effect then in any case. -/
theorem handle_commit
    (settled : Settled o.limits [o.prepare c] (o.holding c now) [o.request c now]) :
    (o.holding c now).handle (.commit o.commit) now =
      if (o.commitWrites c now).toJson.bytes.length ≤ Frame.payloadLimit then
        (o.activated c now, .ok ())
      else ({ o.holding c now with processor := ⟨o.limits, some c, []⟩ },
        .error (Participant.rejectionOfError
          (ChangeLog.Fault.oversized (o.commitWrites c now).toJson.bytes.length).toError)) := by
  obtain ⟨state, read, tells⟩ := settled.state_eq_ok
  have asked := settled.request?_of_mem List.mem_cons_self
  have count : state.count = 1 := tells.count
  have attempted : (o.holding c now).attempt state (.commit o.commit) now = _ :=
    Participant.attempt_eq_close tells rfl asked rfl rfl (by decide) count now
  have closed := Participant.close_eq settled.keeps List.mem_cons_self asked state (o.context 1)
    .commit now
  have effect : (o.holding c now).takeEffect (o.request c now) .commit =
      ({ o.holding c now with processor := ⟨o.limits, some c, []⟩ }, .ok ()) := rfl
  have same : Participant.closeWrites state (o.context 1) (o.request c now).uuid
      (o.request c now).toRecord (o.request c now).version .commit now = o.commitWrites c now := by
    rw [commitWrites, Participant.closeWrites, Participant.closeWrites, count]
    rfl
  have written : (o.holding c now).store.commit (o.commitWrites c now) = _ :=
    Store.commit_recordAll [NodeState.initialWrites, o.prepareWrites c now]
      (Participant.isEmpty_closeWrites ..)
  rw [effect] at closed
  dsimp only at closed
  rw [same, written] at closed
  by_cases small : (o.commitWrites c now).toJson.bytes.length ≤ Frame.payloadLimit
  · rw [if_pos small] at closed ⊢
    exact Participant.handle_of_attempt read (attempted.trans closed)
  · rw [if_neg small] at closed ⊢
    exact Participant.handle_of_attempt read (attempted.trans closed)

theorem settled_activated
    (settled : Settled o.limits [o.prepare c] (o.holding c now) [o.request c now])
    (storable : now.Storable)
    (small : (o.commitWrites c now).toJson.bytes.length ≤ Frame.payloadLimit) :
    Settled o.limits [o.prepare c] (o.activated c now) [(o.request c now).inState .committed] := by
  obtain ⟨h, next, outcome⟩ := settled.handle (.commit o.commit) storable
  rw [handle_commit settled, if_pos small] at next outcome
  obtain ⟨-, accepts⟩ | ⟨⟨r, refused⟩, -⟩ := outcome
  · obtain ⟨d, below, shape, -, -, -, rfl⟩ := accepts.of_closing rfl
    cases shape
    exact next
  · cases refused

theorem activate_eq : o.fresh.activate o c now =
    match o.fresh.handle (.prepare (o.prepare c)) now with
    | (p, .error r) => (p, .error (.invalidChange r.text))
    | (p, .ok ()) =>
      match p.handle (.commit o.commit) now with
      | (p, .error r) => (p, .error (.invalidChange r.text))
      | (p, .ok ()) => (p, .ok ()) := by
  have discovered : o.fresh.discover = .ok (newState.snapshot []) := rfl
  rw [Participant.activate, discovered]
  rfl

/-- A node activates itself as far as its log takes the change-sets. -/
theorem activate_cases (formed : c.checkStructure = .ok ())
    (afforded : c.checkCapacity o.limits = .ok ()) (storable : now.Storable) :
    ∃ k, 0 < k ∧ k ≤ 3 ∧
      (∀ w ∈ (o.writes c now).take k, w.toJson.bytes.length ≤ Frame.payloadLimit) ∧
      (o.fresh.activate o c now).1.store =
        .log (ChangeLog.empty.recordAll ((o.writes c now).take k)) ∧
      (k < 3 → (∃ e, (o.fresh.activate o c now).2 = .error e) ∧
        ∃ w ∈ o.writes c now, Frame.payloadLimit < w.toJson.bytes.length) ∧
      (k = 3 → o.fresh.activate o c now = (o.activated c now, .ok ())) := by
  have prepared : o.fresh.handle (.prepare (o.prepare c)) now = _ :=
    handle_prepare formed afforded
  rw [activate_eq, prepared]
  by_cases small : (o.prepareWrites c now).toJson.bytes.length ≤ Frame.payloadLimit
  · have committed := handle_commit (settled_holding formed afforded storable small)
    rw [if_pos small]
    dsimp only
    rw [committed]
    by_cases short : (o.commitWrites c now).toJson.bytes.length ≤ Frame.payloadLimit
    · rw [if_pos short]
      refine ⟨3, by decide, Nat.le_refl _, ?_, rfl, nofun, fun _ => rfl⟩
      simpa [writes] using ⟨NodeState.small_initialWrites, small, short⟩
    · rw [if_neg short]
      refine ⟨2, by decide, by decide, ?_, rfl,
        fun _ => ⟨⟨_, rfl⟩, o.commitWrites c now, ?_, ?_⟩, nofun⟩
      · simpa [writes] using ⟨NodeState.small_initialWrites, small⟩
      · simp [writes]
      · exact Nat.not_le.1 short
  · rw [if_neg small]
    refine ⟨1, by decide, by decide, ?_, rfl,
      fun _ => ⟨⟨_, rfl⟩, o.prepareWrites c now, ?_, ?_⟩, nofun⟩
    · simpa [writes] using NodeState.small_initialWrites
    · simp [writes]
    · exact Nat.not_le.1 small

theorem activate_eq_activated (formed : c.checkStructure = .ok ())
    (afforded : c.checkCapacity o.limits = .ok ()) (storable : now.Storable)
    (small : ∀ w ∈ o.writes c now, w.toJson.bytes.length ≤ Frame.payloadLimit) :
    o.fresh.activate o c now = (o.activated c now, .ok ()) := by
  obtain ⟨k, -, few, -, -, failed, done⟩ := activate_cases formed afforded storable
  refine done ?_
  by_contra part
  obtain ⟨-, w, mem, long⟩ := failed (by omega)
  exact absurd (small w mem) (Nat.not_le.2 long)

theorem framed_writes (formed : c.checkStructure = .ok ())
    (afforded : c.checkCapacity o.limits = .ok ()) (storable : now.Storable) {k : Nat}
    (small : ∀ w ∈ (o.writes c now).take k, w.toJson.bytes.length ≤ Frame.payloadLimit) :
    ∀ w ∈ (o.writes c now).take k, w.Framed := by
  have initial : NodeState.initialWrites.Framed := ⟨rfl, NodeState.small_initialWrites,
    (ChangeSet.readsBack_iff ChangeSet.stored_initialWrites).2 ChangeSet.depth_initialWrites⟩
  have shallow : (o.request c now).change.depth ≤ Change.depthLimit := Change.depth_activation_le c
  have prepared (small : (o.prepareWrites c now).toJson.bytes.length ≤ Frame.payloadLimit) :
      (o.prepareWrites c now).Framed := by
    have notes : (o.prepareWrites c now).Notes [o.request c now] :=
      Participant.notes_prepareWrites (h := []) rfl rfl rfl c now
    exact notes.framed (settled_holding formed afforded storable small).sound
      (show 1 < 2 ^ 64 by decide) shallow small
  have committed (small : (o.prepareWrites c now).toJson.bytes.length ≤ Frame.payloadLimit)
      (small' : (o.commitWrites c now).toJson.bytes.length ≤ Frame.payloadLimit) :
      (o.commitWrites c now).Framed := by
    have notes : (o.commitWrites c now).Notes [(o.request c now).inState .committed] :=
      @Participant.notes_closeWrites { newState with count := 1 } (o.request c now) [] (o.context 1)
        .commit rfl rfl rfl (by decide) now
    exact notes.framed (settled_activated (settled_holding formed afforded storable small) storable
      small').sound (show 2 < 2 ^ 64 by decide) shallow small'
  match k with
  | 0 => simp
  | 1 => simpa [writes] using initial
  | 2 =>
    have first := small (o.prepareWrites c now) (by simp [writes])
    simpa [writes] using ⟨initial, prepared first⟩
  | k + 3 =>
    have first := small (o.prepareWrites c now) (by simp [writes])
    have second := small (o.commitWrites c now) (by simp [writes])
    simpa [writes] using ⟨initial, prepared first, committed first second⟩

/-- A node whose log has some of the frames is at the point where they were the last ones. -/
theorem settled_writes (formed : c.checkStructure = .ok ())
    (afforded : c.checkCapacity o.limits = .ok ()) (storable : now.Storable) {k : Nat}
    (small : ∀ w ∈ (o.writes c now).take k, w.toJson.bytes.length ≤ Frame.payloadLimit)
    (positive : 0 < k) (few : k ≤ 3) : ∃ accepted p,
      p.store = .log (ChangeLog.empty.recordAll ((o.writes c now).take k)) ∧
        Settled o.limits accepted p (o.history c now k) := by
  match k with
  | 1 => exact ⟨_, _, rfl, o.settled_fresh⟩
  | 2 =>
    have first := small (o.prepareWrites c now) (by simp [writes])
    exact ⟨_, _, rfl, settled_holding formed afforded storable first⟩
  | 3 =>
    have first := small (o.prepareWrites c now) (by simp [writes])
    have second := small (o.commitWrites c now) (by simp [writes])
    have holding := settled_holding formed afforded storable first
    exact ⟨_, _, rfl, settled_activated holding storable second⟩

/-! ## How long the writes are

The text of the hash is not looked into: whatever the hash is, its text has one length. -/

/-- The request without its hash. -/
def measure (d : ChangeDetails) : ChangeDetails := { d with resultHash := "" }

/-- The writes with the hash left out of them. -/
def measured (o : StartupOptions) (c : Cluster) (now : Timestamp) : List ChangeSet :=
  [NodeState.initialWrites,
    ⟨[] ++ ⟨o.uuid.text, .ofRecord (measure (o.request c now)).toRecord⟩ ::
      (o.prepareWrites c now).writes.drop 1⟩,
    ⟨[⟨Key.currentVersion, .long 1⟩] ++
      ⟨o.uuid.text, .ofRecord (measure ((o.request c now).inState .committed)).toRecord⟩ ::
        (o.commitWrites c now).writes.drop 2⟩]

theorem length_measure {d : ChangeDetails} (first : d.previous = none)
    (intact : d.resultHash = d.result.hash) :
    (Value.ofRecord d.toRecord).toJson.chars.length ≤
      (Value.ofRecord (measure d).toRecord).toJson.chars.length + 386 := by
  have same : _ = (Value.ofRecord (measure d).toRecord).toJson.chars.length + _ + _ :=
    d.length_toRecord first d.change ""
  have hash : (Json.quote d.resultHash).length ≤ 6 * 64 + 2 := by
    rw [intact, Cluster.hash, ← Digest.length_ofJson d.result.toJson]
    exact Json.length_quote_le _
  omega

theorem length_writes_le {n : Nat}
    (light : ∀ w ∈ o.measured c now, w.toJson.weight ≤ n) :
    ∀ w ∈ o.writes c now, w.toJson.bytes.length ≤ 4 * (n + 386) := by
  have committed : o.commitWrites c now = ⟨[⟨Key.currentVersion, .long 1⟩] ++
      ⟨o.uuid.text, .ofRecord ((o.request c now).inState .committed).toRecord⟩ ::
        (o.commitWrites c now).writes.drop 2⟩ := by
    rw [← ChangeDetails.insert_state]
    rfl
  have each : ∀ w ∈ o.writes c now, w.toJson.chars.length ≤ n + 386 := by
    have measured : ∀ w ∈ o.measured c now, w.toJson.chars.length ≤ n := fun w mem =>
      Nat.le_trans w.toJson.length_chars_le_weight (light w mem)
    obtain ⟨initial, first, second, -⟩ : _ ∧ _ ∧ _ ∧ _ := by
      simpa only [StartupOptions.measured, List.forall_mem_cons] using measured
    have prepareLength : (o.prepareWrites c now).toJson.chars.length + _ = _ :=
      ChangeSet.length_write [] o.uuid.text (.ofRecord (o.request c now).toRecord)
        (.ofRecord (measure (o.request c now)).toRecord) ((o.prepareWrites c now).writes.drop 1)
    have commitLength := ChangeSet.length_write [⟨Key.currentVersion, .long 1⟩] o.uuid.text
      (.ofRecord ((o.request c now).inState .committed).toRecord)
      (.ofRecord (measure ((o.request c now).inState .committed)).toRecord)
      ((o.commitWrites c now).writes.drop 2)
    rw [← committed] at commitLength
    have prepared := length_measure (d := o.request c now) rfl rfl
    have closed := length_measure (d := (o.request c now).inState .committed) rfl rfl
    simp only [writes, List.forall_mem_cons]
    refine ⟨by omega, by omega, by omega, nofun⟩
  intro w mem
  exact Nat.le_trans w.toJson.length_bytes_le (Nat.mul_le_mul_left 4 (each w mem))

end StartupOptions

/-! ## Starts -/

variable {o : StartupOptions} {d : Disk} {c : Cluster} {now : Timestamp}

theorem StartupStrategy.topology_eq {file : String} (told : o.topologyFile = some file)
    (read : Cluster.ofFile? d.files file = some c)
    (inside : c.nodes.any (·.name == o.name) = true) : topology o d = .ok c := by
  simp only [topology, told, read, inside, if_true]

theorem Participant.boot_eq {p q : Participant}
    (started : start p.name p.store (.new p.processor.limits p.processor.listeners) = .ok q) :
    p.boot = (q, .ok ()) := by
  obtain ⟨store, initialized, resumed⟩ := Outcome.bind_eq_ok.1 started
  simp only [boot, initialized, resumed]

theorem StartupStrategy.openNode_eq {frames : ChangeLog} {p : Participant}
    (opened : ChangeLog.openFile (d.repository.getD []) = .ok frames)
    (started : Participant.start o.name (.log frames) (.new o.limits []) = .ok p) :
    openNode o d = ({ d with repository := p.store.file? }, .ok p) := by
  have booted : Participant.boot ⟨o.name, .log frames, .new o.limits []⟩ = (p, .ok ()) :=
    Participant.boot_eq started
  rw [openNode]
  simp only [opened, booted]
  rfl

/-- A node goes on from its log, whatever else it is told. -/
theorem startNode_existing {files : Settings.Files} {file : List UInt8} {frames : ChangeLog}
    {p : Participant} (opened : ChangeLog.openFile file = .ok frames)
    (started : Participant.start o.name (.log frames) (.new o.limits []) = .ok p) :
    startNode StartupStrategy.all o ⟨files, some file⟩ now =
      (⟨files, p.store.file?⟩, .ok (.existingRepository, p)) := by
  have openNode : StartupStrategy.openNode o ⟨files, some file⟩ = _ :=
    StartupStrategy.openNode_eq (d := ⟨files, some file⟩) opened started
  have first : StartupStrategy.all.find? (·.applies o ⟨files, some file⟩) =
      some .existingRepository := rfl
  rw [startNode, first]
  simp only [StartupStrategy.start, openNode]
  rfl

/-- A new node that is to activate itself. -/
theorem startNode_new (blank : d.repository = none) (auto : o.autoActivate = true)
    (named : StartupStrategy.topology o d = .ok c) : startNode StartupStrategy.all o d now =
      ({ d with repository := (o.fresh.activate o c now).1.store.file? },
        (o.fresh.activate o c now).2.map fun _ => (.configFile, (o.fresh.activate o c now).1)) := by
  have file : o.topologyFile.isSome = true := by
    cases given : o.topologyFile with
    | none =>
      rw [StartupStrategy.topology, given] at named
      cases named
    | some file => rfl
  have first : StartupStrategy.all.find? (·.applies o d) = some .configFile := by
    simp [StartupStrategy.all, StartupStrategy.applies, blank, file]
  have opened : ChangeLog.openFile (d.repository.getD []) = .ok .empty := by
    rw [blank]
    exact ChangeLog.replay_of_end (.inl rfl)
  have openNode := StartupStrategy.openNode_eq opened o.start_fresh
  rw [startNode, first]
  simp only [StartupStrategy.start, named, openNode, auto, if_true]
  cases o.fresh.activate o c now with
  | mk p outcome => cases outcome <;> rfl

end Reconfig
