/-
What can be prepared can be closed.

A node over a log refuses what does not fit into a frame. Once it has prepared a change it takes
nothing else until the change is closed, so whoever closes it does so at the next count, and the
sender of the prepare message needs no more room for that than the prepare message took.
-/
import Reconfig.Proofs.Participant.Availability
import Reconfig.Proofs.Participant.WriteSize

namespace Reconfig

theorem Store.commit_of_fits (s : Store) {c : ChangeSet}
    (fits : c.toJson.size ≤ Frame.payloadLimit) : ∃ next, s.commit c = .ok next := by
  cases written : s.commit c with
  | ok next => exact ⟨next, rfl⟩
  | error e =>
    obtain ⟨frames, -, -, large, -⟩ := Store.commit_eq_error.1 written
    exact absurd fits (Nat.not_le.2 large)

/-! ## While a request is open -/

/-- As long as the newest request is open nothing has been accepted after it. -/
theorem History.Leads.eq_of_open {h' below : History} {d e : ChangeDetails}
    (leads : Leads (d :: below) h') (distinct : (h'.map (·.uuid)).Nodup)
    (inFlight : d.state = .prepared) (mem : e ∈ h') (same : e.uuid = d.uuid)
    (stillOpen : e.state = .prepared) : h' = d :: below := by
  rcases leads.cases_head with rfl | ⟨between, ⟨limits, m, now, accepts⟩, later⟩
  · rfl
  · cases accepts with
    | prepare _ idle => exact absurd inFlight (mode_eq_accepting_iff.1 idle d rfl)
    | @close _ _ _ _ _ target closing =>
      have terminal := Message.target_ne_prepared closing
      have kept := Leads.mem_of_closed later (d := d.inState target) List.mem_cons_self terminal
      obtain rfl := List.inj_on_of_nodup_map distinct mem kept same
      exact absurd stillOpen terminal

namespace Participant

variable {p q r next : Participant} {h : History} {limits : Limits} {accepted : List Prepare}
  {log rest : Exchanges} {state : NodeState} {message : Message} {context : Context} {uuid : Uuid}
  {closing : Closing} {d : ChangeDetails} {now later : Timestamp}

/-! ## Checks, and what comes after them -/

theorem attempt_of_closes (closes : message.closes? = some (context, uuid, closing))
    (p : Participant) (state : NodeState) (now : Timestamp) : p.attempt state message now =
      match p.check state message with
      | .error refusal => (p, .error refusal)
      | .ok () => p.close state context uuid closing now := by
  have closePrepared (m : Close) (kind : Closing) : p.closePrepared state m kind now =
      match checkClose state m with
      | .error refusal => (p, .error refusal)
      | .ok () => p.close state m.context m.uuid kind now := by
    unfold Participant.closePrepared checkClose
    cases (do checkFence state m.context; checkPrepared state m.uuid : Except Reason Unit) <;> rfl
  cases message with
  | prepare m => cases closes
  | commit m =>
    cases closes
    exact closePrepared m .commit
  | rollback m =>
    cases closes
    exact closePrepared m .rollback
  | force m =>
    cases closes
    rfl

/-- When the writes fit, only a listener can be in the way of closing a request. -/
theorem answer_of_close {record : Record} (stored : p.space.requestRecord? uuid = some record)
    (read : ChangeDetails.ofRecord uuid record = .ok d)
    (written : ∃ store, p.store.commit
      (closeWrites state context uuid record d.version closing now) = .ok store) :
    (p.close state context uuid closing now).2 =
      (p.takeEffect d closing).2.mapError fun _ => .reason .applyFailed := by
  obtain ⟨store, written⟩ := written
  simp only [close, stored, read]
  cases effect : p.takeEffect d closing with
  | mk next outcome =>
    cases outcome with
    | error e => rfl
    | ok =>
      simp only [(takeEffect_keeps effect).1, written]
      rfl

theorem takeEffect_eq_ok_iff : (p.takeEffect d closing).2 = .ok () ↔
    (closing.target = .committed → (p.processor.apply d.change d.result).2 = .ok ()) := by
  unfold takeEffect
  split
  · rename_i committed
    exact ⟨fun agreed _ => agreed, fun agreed => agreed committed⟩
  · rename_i other
    exact ⟨fun _ committed => absurd committed other, fun _ => rfl⟩

section Unlimited

variable (settled : Settled limits accepted p.unlimited h)

include settled

/-- The node holds the request that the message is to close. -/
theorem checkClose_eq_ok_iff (tells : state.Tells h) {m : Close} : checkClose state m = .ok () ↔
    state.count = m.context.expected ∧
      ∃ d, p.space.request? m.uuid = .ok (some d) ∧ d.state = .prepared := by
  have found (d : ChangeDetails) :
      p.space.request? m.uuid = .ok (some d) ↔ d ∈ h ∧ d.uuid = m.uuid :=
    settled.request?_eq_some
  rw [checkClose, Outcome.mapError_eq_ok, Outcome.bind_eq_ok]
  simp only [checkPrepared_eq_ok, found]
  constructor
  · rintro ⟨⟨⟩, fence, mode, latest⟩
    obtain ⟨d, below, rfl, inFlight⟩ := History.mode_eq_prepared_iff.1 (tells.mode ▸ mode)
    have same : d.uuid = m.uuid := Option.some.inj (tells.latest.symm.trans latest)
    exact ⟨checkFence_eq_ok.1 fence, d, ⟨List.mem_cons_self, same⟩, inFlight⟩
  · rintro ⟨fence, d, ⟨mem, same⟩, inFlight⟩
    obtain ⟨below, rfl⟩ := settled.sound.eq_cons_of_prepared mem inFlight
    refine ⟨(), checkFence_eq_ok.2 fence, tells.mode.trans ?_,
      tells.latest.trans (congrArg some same)⟩
    exact History.mode_eq_prepared_iff.2 ⟨d, below, rfl, inFlight⟩

theorem checkForce_eq_ok_iff {m : Force} : p.checkForce state m = .ok () ↔
    state.count = m.context.expected ∧ m.target ≠ .prepared ∧
      ∃ d, p.space.request? m.uuid = .ok (some d) ∧ d.state = .prepared := by
  have asked : p.space.request? m.uuid = .ok (h.find? (·.uuid == m.uuid)) :=
    settled.request?_eq m.uuid
  rw [checkForce, Outcome.bind_eq_ok, asked]
  simp only [Outcome.mapError_eq_ok, Outcome.mapError_ok, Outcome.ok_bind, Except.ok.injEq]
  constructor
  · rintro ⟨⟨⟩, fence, passed⟩
    split at passed
    · cases passed
    · rename_i terminal
      cases known : h.find? (·.uuid == m.uuid) with
      | none =>
        rw [known] at passed
        cases passed
      | some d =>
        rw [known] at passed
        refine ⟨checkFence_eq_ok.1 fence, terminal, d, rfl, ?_⟩
        by_contra other
        simp [other] at passed
  · rintro ⟨fence, terminal, d, known, inFlight⟩
    exact ⟨(), checkFence_eq_ok.2 fence, by simp [terminal, known, inFlight]⟩

theorem check_eq_ok_iff (tells : state.Tells h)
    (closes : message.closes? = some (context, uuid, closing)) :
    p.check state message = .ok () ↔ state.count = context.expected ∧ closing.target ≠ .prepared ∧
      ∃ d, p.space.request? uuid = .ok (some d) ∧ d.state = .prepared := by
  cases message with
  | prepare m => cases closes
  | commit m =>
    cases closes
    exact (checkClose_eq_ok_iff settled tells).trans (by simp [Closing.target])
  | rollback m =>
    cases closes
    exact (checkClose_eq_ok_iff settled tells).trans (by simp [Closing.target])
  | force m =>
    cases closes
    exact checkForce_eq_ok_iff settled

theorem byProtocol_check (closes : message.closes? = some (context, uuid, closing)) :
    ByProtocol (p.check state message) := by
  cases message with
  | prepare m => cases closes
  | commit m => exact byProtocol_checkClose state m
  | rollback m => exact byProtocol_checkClose state m
  | force m => exact byProtocol_checkForce ⟨_, settled.request?_eq m.uuid⟩

end Unlimited

/-- When the writes fit, a node closes the request that it holds unless a listener objects, and
what it refuses is forbidden. -/
theorem answer_of_closes (settled : Settled limits accepted p.unlimited h)
    (read : p.state = .ok state) (closes : message.closes? = some (context, uuid, closing))
    (written : ∀ record d, p.space.requestRecord? uuid = some record →
      ChangeDetails.ofRecord uuid record = .ok d → d.state = .prepared → ∃ store, p.store.commit
        (closeWrites state context uuid record d.version closing now) = .ok store) :
    ((p.handle message now).2 = .ok () ↔ state.count = context.expected ∧
      closing.target ≠ .prepared ∧ ∃ d, p.space.request? uuid = .ok (some d) ∧
        d.state = .prepared ∧
        (closing.target = .committed → (p.processor.apply d.change d.result).2 = .ok ())) ∧
    ∀ refusal, (p.handle message now).2 = .error refusal → refusal.reason ≠ .storage := by
  have tells : state.Tells h := tells_of_state settled.keeps read
  have passes := check_eq_ok_iff settled tells closes
  rw [answer_of_state read, attempt_of_closes closes]
  cases checked : p.check state message with
  | error refusal =>
    obtain ⟨reason, rfl, other⟩ := byProtocol_check settled closes refusal checked
    refine ⟨⟨nofun, ?_⟩, fun refusal refused => ?_⟩
    · rintro ⟨fence, terminal, d, asked, inFlight, -⟩
      cases checked.symm.trans (passes.2 ⟨fence, terminal, d, asked, inFlight⟩)
    · cases refused
      exact other
  | ok =>
    obtain ⟨fence, terminal, d, asked, inFlight⟩ := passes.1 checked
    obtain ⟨record, stored, known⟩ := KeySpace.request?_eq_some.1 asked
    have only : ∀ d', p.space.request? uuid = .ok (some d') → d' = d := by
      intro d' asked'
      rw [asked] at asked'
      cases asked'
      rfl
    dsimp only
    rw [answer_of_close stored known (written record d stored known inFlight),
      Outcome.mapError_eq_ok, Outcome.mapError_eq_ok, takeEffect_eq_ok_iff]
    refine ⟨⟨fun agreed => ⟨fence, terminal, d, asked, inFlight, agreed⟩, ?_⟩,
      fun refusal refused => ?_⟩
    · rintro ⟨-, -, d', asked', -, agreed⟩
      exact only d' asked' ▸ agreed
    · cases effect : (p.takeEffect d closing).2 with
      | ok =>
        rw [effect] at refused
        cases refused
      | error e =>
        rw [effect] at refused
        cases refused
        exact nofun

/-! ## Room for the end of a change -/

/-- What a node over a log prepares fits into a frame. -/
theorem fits_of_prepared (settled : Settled ⟨none⟩ accepted p.unlimited h) {frames : ChangeLog}
    (onLog : p.store = .log frames) {m : Prepare}
    (done : (p.handle (.prepare m) now).2 = .ok ()) : ∃ state result,
      state.count = h.messages ∧ newRequest state m result now = h.request m result now ∧
      History.Accepts ⟨none⟩ h (.prepare m) now (h.request m result now :: h) ∧
      (prepareWrites state m result now).toJson.size ≤ Frame.payloadLimit := by
  obtain ⟨state, read, tells⟩ := settled.state_eq_ok
  have read : p.state = .ok state := read
  rw [answer_of_state read, Outcome.mapError_eq_ok, attempt, prepare] at done
  split at done
  · cases done
  · rename_i result passed
    obtain ⟨fence, accepting, version, asked, current, topology, valid⟩ :=
      checkPrepare_eq_ok.1 passed
    have passed : p.unlimited.checkPrepare state m = .ok result :=
      checkPrepare_eq_ok.2 ⟨fence, accepting, version, asked, current, topology,
        Processor.validate_unlimited valid⟩
    have accepts := accepts_of_checkPrepare settled.keeps settled.sound tells passed now
    refine ⟨state, result, tells.count, ?_, accepts, ?_⟩
    · rw [newRequest, tells.latest]
      rfl
    · split at done
      · rename_i store written
        obtain ⟨next, recorded, -⟩ := Store.commit_log_eq_ok.1 (onLog ▸ written)
        rcases ChangeLog.commit_eq_ok.1 recorded with ⟨none, -⟩ | ⟨-, fits, -⟩
        · simp [prepareWrites, provenance, ChangeSet.put, ChangeSet.isEmpty] at none
        · exact fits
      · cases done

/-- What a node holds open under the identity of an earlier request is that request, and the node
has accepted nothing after it. -/
theorem Settled.held_of_open (settled : Settled limits accepted p h) {below : History}
    {e : ChangeDetails} {record : Record} (leads : History.Leads (d :: below) h)
    (inFlight : d.state = .prepared) (stored : p.space.requestRecord? d.uuid = some record)
    (known : ChangeDetails.ofRecord d.uuid record = .ok e) (stillOpen : e.state = .prepared) :
    h = d :: below ∧ e = d ∧ record = d.toRecord := by
  have asked : p.space.request? d.uuid = .ok (some e) :=
    KeySpace.request?_eq_some.2 ⟨_, stored, known⟩
  obtain ⟨mem, same⟩ := settled.request?_eq_some.1 asked
  have distinct := settled.sound.uuids_nodup
  obtain rfl := leads.eq_of_open distinct inFlight mem same stillOpen
  obtain ⟨e', mem', same', rfl⟩ := settled.keeps.mem_of_requestRecord? stored
  obtain rfl := List.inj_on_of_nodup_map distinct mem' List.mem_cons_self same'
  exact ⟨rfl, List.inj_on_of_nodup_map distinct mem List.mem_cons_self same, rfl⟩

/-- Whoever has had a change prepared on a node over a log has room to close it. The writes that
close it fit into a frame, and the node never refuses them for its store. It closes the change that
it still holds unless a listener objects to what is committed. -/
theorem LivesOn.closable (new : p.IsNew) (past : p.LivesOn log q) {frames : ChangeLog}
    (onLog : q.store = .log frames) {m : Prepare} (storable : now.Storable)
    (prepared : (q.handle (.prepare m) now).2 = .ok ())
    (future : (q.handle (.prepare m) now).1.LivesOn rest r)
    (closes : message.closes? = some (context, m.uuid, closing))
    (host : context.host = m.context.host) (user : context.user = m.context.user)
    (storable' : later.Storable) :
    (∀ state record d, r.state = .ok state → r.space.requestRecord? m.uuid = some record →
      ChangeDetails.ofRecord m.uuid record = .ok d → d.state = .prepared →
      (closeWrites state context m.uuid record d.version closing later).toJson.bytes.length ≤
        Frame.payloadLimit) ∧
    (∀ refusal, (r.handle message later).2 = .error refusal → refusal.reason ≠ .storage) ∧
    ((r.handle message later).2 = .ok () ↔ ∃ state d, r.state = .ok state ∧
      state.count = context.expected ∧ closing.target ≠ .prepared ∧
      r.space.request? m.uuid = .ok (some d) ∧ d.state = .prepared ∧
      (closing.target = .committed → (r.processor.apply d.change d.result).2 = .ok ())) := by
  obtain ⟨h, continues⟩ := past.continues new.settled
  obtain ⟨state, result, count, made, accepts, fits⟩ :=
    fits_of_prepared continues.settled onLog prepared
  obtain ⟨h', settled, taken⟩ := continues.settled.unlimited_handle (.prepare m) storable
  obtain rfl : h.request m result now :: h = h' := by
    rcases taken with ⟨-, accepts'⟩ | ⟨⟨r, refused⟩, -⟩
    · exact accepts.unique accepts'
    · rw [prepared] at refused
      cases refused
  obtain ⟨h'', continued⟩ := future.continues settled
  have room : ∀ state record d, r.state = .ok state → r.space.requestRecord? m.uuid = some record →
      ChangeDetails.ofRecord m.uuid record = .ok d → d.state = .prepared →
      (closeWrites state context m.uuid record d.version closing later).toJson.size ≤
        Frame.payloadLimit := by
    intro state' record d read stored known inFlight
    obtain ⟨rfl, rfl, rfl⟩ :=
      continued.settled.held_of_open continued.leads rfl stored known inFlight
    have counted : state'.count = state.count + 1 := by
      rw [(tells_of_state continued.settled.keeps read).count, count, History.messages_cons,
        if_pos inFlight, Nat.add_comm]
    rw [← made]
    exact Nat.le_trans (size_closeWrites_le counted host user storable storable' closing) fits
  obtain ⟨state', read, -⟩ := continued.settled.state_eq_ok
  obtain ⟨accepts, refusal⟩ := answer_of_closes continued.settled read closes
    fun record d stored known inFlight =>
      r.store.commit_of_fits (room state' record d read stored known inFlight)
  refine ⟨room, refusal, accepts.trans ⟨?_, ?_⟩⟩
  · rintro ⟨fence, terminal, d, asked, inFlight, agreed⟩
    exact ⟨state', d, read, fence, terminal, asked, inFlight, agreed⟩
  · rintro ⟨state'', d, read', fence, terminal, asked, inFlight, agreed⟩
    obtain rfl := Except.ok.inj (read.symm.trans read')
    exact ⟨fence, terminal, d, asked, inFlight, agreed⟩

/-- A new node over a log commits the founding that it has prepared. -/
theorem logged_closable : (logged "n").IsNew ∧
    (logged "n").LivesOn [(.prepare (nestedPrepare 0), .ok ())] (nestedNode 0) ∧
    (logged "n").store = .log (ChangeLog.empty.record NodeState.initialWrites) ∧
    ((nestedNode 0).handle (.commit foundingCommit) noon).2 = .ok () := by
  have storable : noon.Storable := by decide
  have blank : (Store.log .empty).Blank := .log (ChangeLog.replay_of_end (.inl rfl))
  have new : (logged "n").IsNew := ⟨_, _, _, blank, start_logged "n"⟩
  have handled := handle_nested (by decide : 0 ≤ 100000)
  have lives := (LivesOn.here (p := logged "n")).handled (.prepare (nestedPrepare 0)) storable
  obtain ⟨d, settled, inFlight, uuid, -⟩ := settled_nestedNode
  obtain ⟨state, read, tells⟩ := settled.state_eq_ok
  have asked := settled.request?_of_mem List.mem_cons_self
  have fence : state.count = foundingCommit.context.expected := by
    rw [tells.count, History.messages_cons, if_pos inFlight]
    rfl
  have closes : (Message.commit foundingCommit).closes? =
      some (foundingCommit.context, (nestedPrepare 0).uuid, .commit) := rfl
  have agreed := Processor.apply_eq_ok d.change d.result unopposed_nestedNode
  obtain ⟨-, -, closed⟩ := LivesOn.here.closable new rfl storable (congrArg Prod.snd handled) .here
    closes rfl rfl storable
  rw [handled] at lives closed
  rw [uuid] at asked
  exact ⟨new, lives, rfl, closed.2
    ⟨state, d, read, fence, by decide, asked, inFlight, fun _ => agreed⟩⟩

end Participant
end Reconfig
