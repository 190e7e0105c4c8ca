/-
A node over a store in memory never fails from within, and can always be freed of a change.

What a node reads of its store can always be read, as long as its chain of requests is not too
long. So it is only the protocol, or somebody who objects to a topology, that makes it refuse a
message. Nobody is asked about a rollback, so a node that holds a change can be told to drop it by
anyone who has asked it for its state.
-/
import Reconfig.Proofs.Participant.Effect

namespace Reconfig

namespace KeySpace

/-- A request that can be read is one that is stored. -/
theorem request?_eq_some {space : KeySpace} {uuid : Uuid} {d : ChangeDetails} :
    space.request? uuid = .ok (some d) ↔ ∃ record, space.requestRecord? uuid = some record ∧
      ChangeDetails.ofRecord uuid record = .ok d := by
  rw [request?]
  cases space.requestRecord? uuid with
  | none => simp
  | some record => simp [Outcome.map_eq_ok]

end KeySpace

/-- What a node in this state shows of its history. -/
def NodeState.snapshot (s : NodeState) (h : History) : Snapshot :=
  ⟨s.mode, s.count, s.lastHost, s.lastUser, s.lastTimestamp, s.currentVersion, s.highestVersion,
    h.head?, h.entries⟩

/-- What fails is forbidden by the protocol, and the store has no part in it. -/
def ByProtocol {α : Type} (outcome : Except Refusal α) : Prop :=
  ∀ refusal, outcome = .error refusal → ∃ reason, refusal = .reason reason ∧ reason ≠ .storage

namespace ByProtocol

variable {α β : Type}

theorem ok (a : α) : ByProtocol (.ok a) := nofun

theorem reason {reason : Reason} (other : reason ≠ .storage) :
    ByProtocol (.error (.reason reason) : Except Refusal α) := by
  rintro refusal ⟨⟩
  exact ⟨reason, rfl, other⟩

theorem bind {outcome : Except Refusal α} {next : α → Except Refusal β}
    (first : ByProtocol outcome) (later : ∀ a, ByProtocol (next a)) :
    ByProtocol (outcome >>= next) := by
  intro refusal failed
  cases outcome with
  | ok a => exact later a refusal failed
  | error r =>
    cases failed
    exact first _ rfl

theorem map {outcome : Except Refusal α} (forbidden : ByProtocol outcome) (f : α → β) :
    ByProtocol (outcome.map f) := by
  cases outcome with
  | ok a => exact .ok (f a)
  | error r =>
    rintro refusal ⟨⟩
    exact forbidden _ rfl

end ByProtocol

namespace Participant

variable {p q : Participant} {h : History} {limits : Limits} {accepted : List Prepare}
  {state : NodeState} {m : Message} {now : Timestamp}

/-! ## What a node reads and checks -/

/-- The node finds its newest request. -/
def FindsLatest (p : Participant) (state : NodeState) : Prop :=
  ∀ uuid, state.latest = some uuid → ∃ d, p.space.request? uuid = .ok (some d)

/-- The node can read all that it asks its store for. -/
structure Reads (p : Participant) (state : NodeState) : Prop where
  read : p.state = .ok state
  request : ∀ uuid, ∃ known, p.space.request? uuid = .ok known
  topology : ∃ current, p.space.committedTopology state.latest = .ok current

/-- What a node checks before it closes the request that it holds. -/
def checkClose (state : NodeState) (m : Close) : Except Refusal Unit :=
  (do checkFence state m.context; checkPrepared state m.uuid : Except Reason Unit).mapError .reason

/-- What a node checks before it carries out a message. -/
def check (p : Participant) (state : NodeState) : Message → Except Refusal Unit
  | .prepare m => (p.checkPrepare state m).map fun _ => ()
  | .commit m => checkClose state m
  | .rollback m => checkClose state m
  | .force m => p.checkForce state m

/-- The history has the request, if any has. -/
theorem Settled.request?_eq (settled : Settled limits accepted p h) (uuid : Uuid) :
    p.space.request? uuid = .ok (h.find? (·.uuid == uuid)) := by
  cases found : h.find? (·.uuid == uuid) with
  | some d =>
    have same : d.uuid = uuid := by simpa using List.find?_some found
    rw [← same]
    exact settled.request?_of_mem (List.mem_of_find?_eq_some found)
  | none =>
    refine settled.keeps.request?_of_absent fun d mem same => ?_
    simpa [same] using List.find?_eq_none.1 found d mem

theorem Settled.findsLatest (settled : Settled limits accepted p h) (tells : state.Tells h) :
    p.FindsLatest state := by
  intro uuid latest
  cases h with
  | nil => cases tells.latest.symm.trans latest
  | cons d below =>
    cases tells.latest.symm.trans latest
    exact ⟨d, settled.request?_of_mem List.mem_cons_self⟩

theorem Settled.reads (settled : Settled limits accepted p h) (short : h.length ≤ chainLimit) :
    ∃ state, p.Reads state ∧ state.Tells h := by
  obtain ⟨state, read, tells⟩ := settled.state_eq_ok
  refine ⟨state, ⟨read, fun uuid => ⟨_, settled.request?_eq uuid⟩, ?_⟩, tells⟩
  rw [tells.latest, settled.keeps.committedTopology_of_created settled.sound settled.created,
    if_pos short]
  exact ⟨_, rfl⟩

theorem byProtocol_checkFence (state : NodeState) (context : Context) :
    ByProtocol ((checkFence state context).mapError .reason) := by
  unfold checkFence
  split
  · exact .ok ()
  · exact .reason nofun

theorem byProtocol_checkClose (state : NodeState) (m : Close) :
    ByProtocol (checkClose state m) := by
  unfold checkClose checkFence checkPrepared
  split
  · split
    · exact .reason nofun
    · split
      · exact .reason nofun
      · exact .ok ()
  · exact .reason nofun

theorem byProtocol_checkForce {m : Force}
    (readable : ∃ known, p.space.request? m.uuid = .ok known) :
    ByProtocol (p.checkForce state m) := by
  obtain ⟨known, asked⟩ := readable
  refine .bind (byProtocol_checkFence state m.context) fun _ => ?_
  split
  · exact .reason nofun
  · rw [asked]
    cases known with
    | none => exact .reason nofun
    | some d =>
      simp only [Outcome.mapError_ok, Outcome.ok_bind]
      split
      · exact .ok _
      · exact .reason nofun

namespace Reads

variable (reads : p.Reads state)

include reads

theorem checkPrepare (m : Prepare) : ByProtocol (p.checkPrepare state m) := by
  obtain ⟨known, asked⟩ := reads.request m.uuid
  obtain ⟨current, topology⟩ := reads.topology
  refine .bind (byProtocol_checkFence state m.context) fun _ => ?_
  split
  · exact .reason nofun
  · split
    · exact .reason nofun
    · rw [asked]
      cases known with
      | some d => exact .reason nofun
      | none =>
        simp only [topology, Outcome.mapError_ok, Outcome.ok_bind]
        split
        · exact .ok _
        · exact .reason nofun

theorem checkForce (m : Force) : ByProtocol (p.checkForce state m) :=
  byProtocol_checkForce (reads.request m.uuid)

/-- Only the protocol makes a check fail. -/
theorem check (m : Message) : ByProtocol (p.check state m) := by
  cases m with
  | prepare m => exact (reads.checkPrepare m).map _
  | commit m => exact byProtocol_checkClose state m
  | rollback m => exact byProtocol_checkClose state m
  | force m => exact reads.checkForce m

end Reads

/-- Somebody may object to what the message is to make effective. -/
def Opposed (p : Participant) (m : Message) : Prop :=
  ¬ p.processor.Unopposed ∧ ∀ close, m ≠ .rollback close

theorem takeEffect_cases (p : Participant) (d : ChangeDetails) (closing : Closing) :
    (p.takeEffect d closing).2 = .ok () ∨
      (∃ e, (p.takeEffect d closing).2 = .error e) ∧ closing.target = .committed ∧
        ¬ p.processor.Unopposed := by
  cases effect : (p.takeEffect d closing).2 with
  | ok => exact .inl rfl
  | error e =>
    unfold takeEffect at effect
    split at effect
    · rename_i committed
      refine .inr ⟨⟨e, rfl⟩, committed, fun unopposed => ?_⟩
      cases (Processor.apply_eq_ok d.change d.result unopposed).symm.trans effect
    · cases effect

/-- In memory a node closes a request unless somebody objects. -/
theorem close_cases {uuid : Uuid} {d : ChangeDetails} (memory : p.store.InMemory)
    (asked : p.space.request? uuid = .ok (some d)) (state : NodeState) (context : Context)
    (closing : Closing) (now : Timestamp) : (p.close state context uuid closing now).2 = .ok () ∨
      (p.close state context uuid closing now).2 = .error (.reason .applyFailed) ∧
        closing.target = .committed ∧ ¬ p.processor.Unopposed := by
  obtain ⟨record, stored, read⟩ := KeySpace.request?_eq_some.1 asked
  obtain ⟨space, memory⟩ := memory
  have taken := p.takeEffect_cases d closing
  simp only [close, stored, read]
  cases effect : p.takeEffect d closing with
  | mk next outcome =>
  rw [effect] at taken
  cases outcome with
  | error e =>
    rcases taken with agreed | ⟨-, opposed⟩
    · cases agreed
    · exact .inr ⟨rfl, opposed⟩
  | ok =>
    have store := (takeEffect_keeps effect).1
    simp only [store, memory, Store.commit, true_or]

theorem FindsLatest.closePrepared_eq (finds : p.FindsLatest state) (memory : p.store.InMemory)
    (m : Close) (closing : Closing) (now : Timestamp) :
    (p.closePrepared state m closing now).2 = checkClose state m ∨
      (p.closePrepared state m closing now).2 = .error (.reason .applyFailed) ∧
        closing.target = .committed ∧ ¬ p.processor.Unopposed := by
  unfold closePrepared checkClose
  split
  · rename_i failed
    rw [failed]
    exact .inl rfl
  · rename_i passed
    rw [passed]
    obtain ⟨⟨⟩, -, prepared⟩ := Outcome.bind_eq_ok.1 passed
    obtain ⟨d, asked⟩ := finds m.uuid (checkPrepared_eq_ok.1 prepared).2
    exact close_cases memory asked state m.context closing now

theorem force_eq (memory : p.store.InMemory) (m : Force)
    (now : Timestamp) : (p.force state m now).2 = p.checkForce state m ∨
      (p.force state m now).2 = .error (.reason .applyFailed) ∧ ¬ p.processor.Unopposed := by
  unfold force
  split
  · rename_i failed
    rw [failed]
    exact .inl rfl
  · rename_i passed
    rw [passed]
    obtain ⟨⟨⟩, -, checked⟩ := Outcome.bind_eq_ok.1 passed
    split at checked
    · cases checked
    · obtain ⟨known, asked, checked⟩ := Outcome.bind_eq_ok.1 checked
      cases known with
      | none => cases checked
      | some d =>
        have closed := close_cases memory (Outcome.mapError_eq_ok.1 asked) state m.context
          (.force m.target) now
        exact closed.imp_right fun ⟨refused, _, opposed⟩ => ⟨refused, opposed⟩

/-- In memory a node does what its checks say, unless somebody objects. -/
theorem FindsLatest.attempt_eq (finds : p.FindsLatest state) (memory : p.store.InMemory)
    (m : Message) (now : Timestamp) : (p.attempt state m now).2 = p.check state m ∨
      (p.attempt state m now).2 = .error (.reason .applyFailed) ∧ p.Opposed m := by
  cases m with
  | prepare m =>
    obtain ⟨space, memory⟩ := memory
    refine .inl ?_
    simp only [attempt, prepare, Participant.check]
    cases p.checkPrepare state m with
    | error refusal => rfl
    | ok result =>
      simp only [memory, Store.commit]
      rfl
  | commit m =>
    rcases finds.closePrepared_eq memory m .commit now with checked | ⟨refused, -, opposed⟩
    · exact .inl checked
    · exact .inr ⟨refused, opposed, fun _ same => by cases same⟩
  | rollback m =>
    rcases finds.closePrepared_eq memory m .rollback now with checked | ⟨-, committed, -⟩
    · exact .inl checked
    · cases committed
  | force m =>
    rcases force_eq memory m now with checked | ⟨refused, opposed⟩
    · exact .inl checked
    · exact .inr ⟨refused, opposed, fun _ same => by cases same⟩

/-! ## What a node answers -/

theorem Settled.discover_eq (settled : Settled limits accepted p h) (read : p.state = .ok state) :
    p.discover = if h.length ≤ chainLimit then .ok (state.snapshot h)
      else .error (.corrupted "change chain loops") := by
  rw [discover_of_state settled.keeps (settled.limits ▸ settled.sound) read]
  cases h with
  | nil => rfl
  | cons d below =>
    have timed : readTimestamp d.created.storedText = .ok d.created := by
      have storable := settled.created d List.mem_cons_self
      rw [readTimestamp, Timestamp.parseStrict?_storedText storable]
    simp only [timed, Outcome.mapError_ok, Outcome.ok_bind]
    rfl

/-- The node answers every query, and refuses messages for what they say only. Whoever knows what
it shows can free it of the change that it holds. -/
structure Available (p : Participant) : Prop where
  discover : ∃ s, p.discover = .ok s
  committed : ∃ topology, p.committedTopology = .ok topology
  upcoming : ∃ topology, p.upcomingTopology = .ok topology
  view : ∃ view, p.topologyView = .ok view
  refusal : ∀ m now r, (p.handle m now).2 = .error r → r.reason ≠ .storage
  rollback : ∀ s, p.discover = .ok s → s.mode = .prepared → ∃ uuid, s.latestUuid = some uuid ∧
    ∀ host user now, now.Storable →
      (p.handle (.rollback ⟨⟨s.count, host, user⟩, uuid⟩) now).2 = .ok () ∧
      (p.handle (.rollback ⟨⟨s.count, host, user⟩, uuid⟩) now).1.AtRest

theorem answer_of_state (read : p.state = .ok state) (m : Message) (now : Timestamp) :
    (p.handle m now).2 = (p.attempt state m now).2.mapError (p.rejection state m.phase) := by
  simp only [handle, read]

theorem Reads.refusal (reads : p.Reads state) (finds : p.FindsLatest state)
    (memory : p.store.InMemory) {r : Rejection}
    (refused : (p.handle m now).2 = .error r) : r.reason ≠ .storage := by
  have forbidden : ByProtocol (p.attempt state m now).2 := by
    rcases finds.attempt_eq memory m now with checked | ⟨failed, -⟩
    · rw [checked]
      exact reads.check m
    · rw [failed]
      exact .reason nofun
  rw [answer_of_state reads.read] at refused
  cases failed : (p.attempt state m now).2 with
  | ok =>
    rw [failed] at refused
    cases refused
  | error refusal =>
    obtain ⟨reason, rfl, other⟩ := forbidden refusal failed
    rw [failed] at refused
    cases refused
    exact other

theorem Reads.rollback (reads : p.Reads state) (finds : p.FindsLatest state)
    (memory : p.store.InMemory) {uuid : Uuid} (holding : state.mode = .prepared)
    (latest : state.latest = some uuid) (host user : String) (now : Timestamp) :
    (p.handle (.rollback ⟨⟨state.count, host, user⟩, uuid⟩) now).2 = .ok () := by
  have passed : checkClose state ⟨⟨state.count, host, user⟩, uuid⟩ = .ok () :=
    Outcome.mapError_eq_ok.2 (Outcome.bind_eq_ok.2
      ⟨(), checkFence_eq_ok.2 rfl, checkPrepared_eq_ok.2 ⟨holding, latest⟩⟩)
  rw [answer_of_state reads.read]
  rcases finds.attempt_eq memory (.rollback ⟨⟨state.count, host, user⟩, uuid⟩) now with
    checked | ⟨-, -, other⟩
  · rw [checked, show p.check state (.rollback _) = .ok () from passed]
    rfl
  · exact absurd rfl (other _)

theorem Reads.of_unlimited (reads : p.unlimited.Reads state) : p.Reads state :=
  ⟨reads.read, reads.request, reads.topology⟩

/-- A node is at rest once it has rolled back the change that it held. -/
theorem Settled.atRest_of_rollback (settled : Settled ⟨none⟩ accepted p.unlimited h)
    (short : h.length ≤ chainLimit) {context : Context} {uuid : Uuid} (storable : now.Storable)
    (done : (p.handle (.rollback ⟨context, uuid⟩) now).2 = .ok ()) :
    (p.handle (.rollback ⟨context, uuid⟩) now).1.AtRest := by
  obtain ⟨h', settled', ⟨-, accepts⟩ | ⟨⟨r, refused⟩, -⟩⟩ :=
    settled.unlimited_handle (.rollback ⟨context, uuid⟩) storable
  · obtain ⟨d, below, rfl, -, -, -, rfl⟩ := accepts.of_closing rfl
    have stands : Stands _ (d.inState .rolledBack :: below) := ⟨_, _, settled'⟩
    obtain ⟨shown, closed⟩ := stands.atRest rfl short
    exact ⟨shown, closed⟩
  · cases done.symm.trans refused

theorem Settled.available_of_short (settled : Settled ⟨none⟩ accepted p.unlimited h)
    (memory : p.store.InMemory) (short : h.length ≤ chainLimit) : p.Available := by
  obtain ⟨state, reads, tells⟩ := settled.reads short
  have discover := (settled.discover_eq reads.read).trans (if_pos short)
  have committed := settled.committedTopology_eq.trans (if_pos short)
  obtain ⟨upcoming, announced⟩ := settled.upcomingTopology_eq_ok short
  have reads := reads.of_unlimited
  have finds : p.FindsLatest state := settled.findsLatest tells
  refine ⟨⟨_, discover⟩, ⟨_, committed⟩, ⟨upcoming, announced⟩,
    ⟨⟨upcoming, p.runtimeTopology⟩, ?_⟩, fun m now r refused => reads.refusal finds memory refused,
    fun s found holding => ?_⟩
  · exact Outcome.bind_eq_ok.2 ⟨upcoming, announced, rfl⟩
  · cases discover.symm.trans found
    have holding : state.mode = .prepared := holding
    obtain ⟨d, below, rfl, -⟩ := History.mode_eq_prepared_iff.1 (tells.mode ▸ holding)
    refine ⟨d.uuid, rfl, fun host user now storable => ?_⟩
    have done := reads.rollback finds memory holding tells.latest host user now
    exact ⟨done, settled.atRest_of_rollback short storable done⟩

/-- A node over a store in memory stays available, whatever befalls it. -/
theorem LivesOn.available {name : String} {processor : Processor} {log : Exchanges}
    (started : start name .empty processor = .ok p) (lives : p.LivesOn log q)
    (few : log.prepared.length ≤ chainLimit) : q.Available := by
  have new : p.IsNew := ⟨_, _, _, .memory, started⟩
  rw [start_empty] at started
  cases started
  obtain ⟨h, settled, ⟨memory, -⟩⟩ := lives.inEffect ⟨⟨_, rfl⟩, rfl⟩ new.settled
  exact settled.available_of_short memory (by simpa [settled.length_eq] using few)

/-- A node that holds its founding can be asked for everything, and freed of the founding. -/
theorem contested_available : ∃ (p q : Participant) (refusal : Rejection) (s : Snapshot),
    start "n" .empty (.new ⟨none⟩ []) = .ok p ∧
    p.LivesOn [(.prepare foundingPrepare, .ok ()), (.prepare rivalPrepare, .error refusal)] q ∧
    q.Available ∧ q.discover = .ok s ∧ s.mode = .prepared := by
  obtain ⟨p, q, _, d, refusal, started, lives, -, ⟨⟨_, settled⟩, -⟩, -, -, inFlight, -⟩ :=
    contested_lives
  have few : 1 ≤ chainLimit := by decide
  have available := lives.available started few
  obtain ⟨s, found⟩ := available.discover
  have holding := History.mode_eq_prepared_iff.2 ⟨d, [], rfl, inFlight⟩
  have stands : q.Stands [d] := ⟨_, _, settled⟩
  exact ⟨p, q, refusal, s, started, lives, available, found,
    (stands.shows found).mode.trans holding⟩

end Participant
end Reconfig
