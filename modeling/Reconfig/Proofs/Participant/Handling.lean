/-
A node handles messages as its history says.

Whatever the listeners answer and whatever the store refuses, an accepted
message is one that the history can take, and a refused message leaves the
store as it was.
-/
import Reconfig.Proofs.Participant.Step

namespace Reconfig

namespace Message

/-- The request that a message is to close, and how. -/
def closes? : Message → Option (Context × Uuid × Participant.Closing)
  | .prepare _ => none
  | .commit m => some (m.context, m.uuid, .commit)
  | .rollback m => some (m.context, m.uuid, .rollback)
  | .force m => some (m.context, m.uuid, .force m.target)

theorem closing?_of_closes? {m : Message} {context : Context} {uuid : Uuid}
    {closing : Participant.Closing} (closes : m.closes? = some (context, uuid, closing))
    (terminal : closing.target ≠ .prepared) :
    m.closing? = some (context, uuid, closing.target) := by
  cases m with
  | prepare m => cases closes
  | commit m =>
    cases closes
    rfl
  | rollback m =>
    cases closes
    rfl
  | force m =>
    cases closes
    exact if_neg terminal

theorem closes?_of_closing? {m : Message} {context : Context} {uuid : Uuid}
    {target : ChangeState} (closing : m.closing? = some (context, uuid, target)) :
    ∃ closing : Participant.Closing,
      m.closes? = some (context, uuid, closing) ∧ closing.target = target := by
  cases m with
  | prepare m => cases closing
  | commit m =>
    cases closing
    exact ⟨.commit, rfl, rfl⟩
  | rollback m =>
    cases closing
    exact ⟨.rollback, rfl, rfl⟩
  | force m =>
    rw [closing?] at closing
    split at closing
    · cases closing
    · cases closing
      exact ⟨.force m.target, rfl, rfl⟩

end Message

theorem History.find?_committed (h : History) :
    h.entries.find? (·.state == .committed) = h.committed.head?.map (·.entry) := by
  rw [entries, List.find?_map, committed, List.head?_filter]
  rfl

namespace KeySpace
namespace Keeps

variable {space : KeySpace} {h : History} {limits : Limits}

theorem committedTopology_eq (keeps : space.Keeps h) (sound : History.Sound limits h)
    {topology : Option Cluster} (read : space.committedTopology h.latest = .ok topology) :
    topology = h.topology := by
  rw [committedTopology, keeps.lineage_eq sound] at read
  split at read
  · simp only [Outcome.ok_bind, h.find?_committed] at read
    cases newest : h.committed.head? with
    | none =>
      simp only [newest, Option.map_none, Outcome.pure_eq_ok, Except.ok.injEq] at read
      simp [← read, History.topology, newest]
    | some d =>
      have mem : d ∈ h := (List.mem_filter.1 (List.mem_of_mem_head? newest)).1
      simp only [newest, Option.map_some, ChangeDetails.entry, keeps.request?_of_mem sound mem,
        Outcome.bind_eq_ok, Outcome.map_eq_ok] at read
      obtain ⟨_, ⟨created, -, rfl⟩, result⟩ := read
      simp only [Option.map_some, Outcome.pure_eq_ok, Except.ok.injEq] at result
      simp [← result, History.topology, newest]
  · cases read

/-- The committed topology is only found on a chain that is not too long. -/
theorem short_of_committedTopology (keeps : space.Keeps h) (sound : History.Sound limits h)
    {topology : Option Cluster} (read : space.committedTopology h.latest = .ok topology) :
    h.length ≤ chainLimit := by
  by_contra long
  rw [committedTopology, keeps.lineage_eq sound, if_neg long] at read
  cases read

end Keeps
end KeySpace

/-- The state says of the history what the node keeps of it. -/
structure NodeState.Tells (state : NodeState) (h : History) : Prop where
  mode : state.mode = h.mode
  count : state.count = h.messages
  currentVersion : state.currentVersion = h.version
  highestVersion : state.highestVersion = h.highest
  latest : state.latest = h.latest

namespace Participant

variable {p next : Participant} {h : History} {state : NodeState}

theorem tells_of_state (keeps : p.space.Keeps h) (read : p.state = .ok state) :
    state.Tells h := by
  rw [Participant.state, keeps.nodeState_eq, Outcome.mapError_eq_ok, Outcome.map_eq_ok] at read
  obtain ⟨lastTimestamp, -, rfl⟩ := read
  exact ⟨rfl, rfl, rfl, rfl, rfl⟩

theorem checkFence_eq_ok {context : Context} :
    checkFence state context = .ok () ↔ state.count = context.expected := by
  unfold checkFence
  split <;> simp [*]

theorem checkPrepared_eq_ok {uuid : Uuid} : checkPrepared state uuid = .ok () ↔
    state.mode = .prepared ∧ state.latest = some uuid := by
  unfold checkPrepared
  split
  · simp [*]
  · split <;> simp_all

/-- A node agrees to prepare a change that is new to it and that its committed topology can
take, if the sender knows the state of the node. -/
theorem checkPrepare_eq_ok {m : Prepare} {result : Cluster} :
    p.checkPrepare state m = .ok result ↔ state.count = m.context.expected ∧
      state.mode = .accepting ∧ m.version = state.currentVersion + 1 ∧
      p.space.request? m.uuid = .ok none ∧ ∃ current,
        p.space.committedTopology state.latest = .ok current ∧
          p.processor.validate current m.change = .ok result := by
  constructor
  · intro passed
    obtain ⟨⟨⟩, fence, passed⟩ := Outcome.bind_eq_ok.1 passed
    rw [Outcome.mapError_eq_ok, checkFence_eq_ok] at fence
    split at passed
    · cases passed
    rename_i accepting
    split at passed
    · cases passed
    rename_i version
    obtain ⟨known, asked, passed⟩ := Outcome.bind_eq_ok.1 passed
    cases known with
    | some details => cases passed
    | none =>
      simp only [Outcome.bind_eq_ok, Outcome.mapError_eq_ok] at asked passed
      obtain ⟨current, topology, passed⟩ := passed
      split at passed
      · rename_i validated
        cases passed
        exact ⟨fence, not_ne_iff.1 accepting, not_ne_iff.1 version, asked, current, topology,
          validated⟩
      · cases passed
  · rintro ⟨fence, accepting, version, asked, current, topology, validated⟩
    have fenced : checkFence state m.context = .ok () := checkFence_eq_ok.2 fence
    simp only [checkPrepare, fenced, accepting, version, asked, topology, validated,
      Outcome.mapError_ok, Outcome.ok_bind, ne_eq, not_true_eq_false, if_false,
      Outcome.pure_eq_ok]

theorem accepts_of_checkPrepare (keeps : p.space.Keeps h)
    (sound : History.Sound p.processor.limits h) (tells : state.Tells h) {m : Prepare}
    {result : Cluster} (passed : p.checkPrepare state m = .ok result) (now : Timestamp) :
    History.Accepts p.processor.limits h (.prepare m) now (h.request m result now :: h) := by
  obtain ⟨fence, accepting, version, asked, current, topology, validated⟩ :=
    checkPrepare_eq_ok.1 passed
  rw [tells.latest] at topology
  rw [Processor.validate, Outcome.mapError_eq_ok, keeps.committedTopology_eq sound topology]
    at validated
  refine .prepare (tells.count ▸ fence) (tells.mode ▸ accepting) (tells.currentVersion ▸ version)
    (fun d mem same => ?_) validated
  rw [← same, keeps.request?_of_mem sound mem, Outcome.map_eq_ok] at asked
  obtain ⟨_, _, impossible⟩ := asked
  cases impossible

/-- A node whose chain is too long prepares nothing more. -/
theorem short_of_checkPrepare (keeps : p.space.Keeps h)
    (sound : History.Sound p.processor.limits h) (tells : state.Tells h) {m : Prepare}
    {result : Cluster} (passed : p.checkPrepare state m = .ok result) : h.length ≤ chainLimit := by
  obtain ⟨-, -, -, -, current, topology, -⟩ := checkPrepare_eq_ok.1 passed
  rw [tells.latest] at topology
  exact keeps.short_of_committedTopology sound topology

theorem limits_apply (p : Processor) (change : Change) (result : Cluster) :
    (p.apply change result).1.limits = p.limits := by
  unfold Processor.apply
  split
  · rfl
  · split <;> rfl

theorem processor_prepare (p : Participant) (m : Prepare) (now : Timestamp) :
    (p.handle (.prepare m) now).1.processor = p.processor := by
  unfold handle
  split
  · rfl
  · simp only [attempt, prepare]
    split
    · rfl
    · split <;> rfl

theorem takeEffect_keeps {details : ChangeDetails} {closing : Closing}
    {outcome : Except Error Unit} (effect : p.takeEffect details closing = (next, outcome)) :
    next.store = p.store ∧ next.processor.limits = p.processor.limits := by
  unfold takeEffect at effect
  split at effect
  · cases effect
    exact ⟨rfl, limits_apply _ _ _⟩
  · cases effect
    exact ⟨rfl, rfl⟩

/-- A node that closes a prepared request at all closes the one in flight. -/
theorem closePrepared_cases (tells : state.Tells h) (m : Close) (closing : Closing)
    (now : Timestamp) :
    (∃ refusal, p.closePrepared state m closing now = (p, .error refusal)) ∨
      ∃ d below, h = d :: below ∧ d.state = .prepared ∧ m.uuid = d.uuid ∧
        state.count = m.context.expected ∧
        p.closePrepared state m closing now = p.close state m.context d.uuid closing now := by
  unfold closePrepared
  split
  · exact .inl ⟨_, rfl⟩
  · rename_i checked
    obtain ⟨⟨⟩, fence, prepared⟩ := Outcome.bind_eq_ok.1 checked
    obtain ⟨mode, latest⟩ := checkPrepared_eq_ok.1 prepared
    obtain ⟨d, below, rfl, inFlight⟩ := History.mode_eq_prepared_iff.1 (tells.mode ▸ mode)
    have same : d.uuid = m.uuid := Option.some.inj (tells.latest.symm.trans latest)
    exact .inr ⟨d, below, rfl, inFlight, same.symm, checkFence_eq_ok.1 fence, by rw [same]⟩

/-- A force message is not asked whether the node is prepared, but a request that
is still open is always the newest one. -/
theorem force_cases (keeps : p.space.Keeps h) (sound : History.Sound p.processor.limits h)
    (m : Force) (now : Timestamp) :
    (∃ refusal, p.force state m now = (p, .error refusal)) ∨
      ∃ d below, h = d :: below ∧ d.state = .prepared ∧ m.uuid = d.uuid ∧
        m.target ≠ .prepared ∧ state.count = m.context.expected ∧
        p.force state m now = p.close state m.context d.uuid (.force m.target) now := by
  unfold force
  split
  · exact .inl ⟨_, rfl⟩
  · rename_i checked
    rw [checkForce, Outcome.bind_eq_ok] at checked
    obtain ⟨⟨⟩, fence, checked⟩ := checked
    rw [Outcome.mapError_eq_ok, checkFence_eq_ok] at fence
    split at checked
    · cases checked
    rename_i terminal
    rw [Outcome.bind_eq_ok] at checked
    obtain ⟨known, asked, checked⟩ := checked
    rw [Outcome.mapError_eq_ok] at asked
    by_cases made : ∃ d ∈ h, d.uuid = m.uuid
    · obtain ⟨d, mem, same⟩ := made
      rw [← same, keeps.request?_of_mem sound mem, Outcome.map_eq_ok] at asked
      obtain ⟨created, -, rfl⟩ := asked
      have inFlight : d.state = .prepared := by
        by_contra other
        simp [other] at checked
      obtain ⟨below, rfl⟩ := sound.eq_cons_of_prepared mem inFlight
      exact .inr ⟨d, below, rfl, inFlight, same.symm, terminal, fence, by rw [same]⟩
    · rw [keeps.request?_of_absent fun d mem same => made ⟨d, mem, same⟩] at asked
      cases asked
      cases checked

/-- A node refuses a message at once, or the message is a prepare, or the node gets as far as
closing the request in flight. -/
theorem attempt_cases (keeps : p.space.Keeps h) (sound : History.Sound p.processor.limits h)
    (tells : state.Tells h) (m : Message) (now : Timestamp) :
    (∃ refusal, p.attempt state m now = (p, .error refusal)) ∨
      (∃ request, m = .prepare request) ∨
      ∃ d below context closing, h = d :: below ∧ d.state = .prepared ∧
        m.closes? = some (context, d.uuid, closing) ∧ closing.target ≠ .prepared ∧
        state.count = context.expected ∧
        p.attempt state m now = p.close state context d.uuid closing now := by
  cases m with
  | prepare m => exact .inr (.inl ⟨m, rfl⟩)
  | commit m =>
    rcases closePrepared_cases tells m .commit now with
      refused | ⟨d, below, shape, inFlight, same, fence, closed⟩
    · exact .inl refused
    · refine .inr (.inr ⟨d, below, m.context, .commit, shape, inFlight, ?_, by decide, fence,
        closed⟩)
      rw [Message.closes?, same]
  | rollback m =>
    rcases closePrepared_cases tells m .rollback now with
      refused | ⟨d, below, shape, inFlight, same, fence, closed⟩
    · exact .inl refused
    · refine .inr (.inr ⟨d, below, m.context, .rollback, shape, inFlight, ?_, by decide, fence,
        closed⟩)
      rw [Message.closes?, same]
  | force m =>
    rcases force_cases keeps sound m now with
      refused | ⟨d, below, shape, inFlight, same, terminal, fence, closed⟩
    · exact .inl refused
    · refine .inr (.inr ⟨d, below, m.context, .force m.target, shape, inFlight, ?_, terminal,
        fence, closed⟩)
      rw [Message.closes?, same]

/-- Closing a request whose record can be read. -/
theorem close_eq {d details : ChangeDetails} (keeps : p.space.Keeps h) (mem : d ∈ h)
    (asked : p.space.request? d.uuid = .ok (some details)) (state : NodeState)
    (context : Context) (closing : Closing) (now : Timestamp) :
    p.close state context d.uuid closing now =
      match p.takeEffect details closing with
      | (q, .error _) => (q, .error (.reason .applyFailed))
      | (q, .ok ()) =>
        match q.store.commit
            (closeWrites state context d.uuid d.toRecord details.version closing now) with
        | .ok store => ({ q with store }, .ok ())
        | .error e => (q, .error (.error e)) := by
  have stored := keeps.requestRecord?_of_mem mem
  rw [KeySpace.request?, stored] at asked
  obtain ⟨_, read, same⟩ := Outcome.map_eq_ok.1 asked
  cases same
  rw [close, stored]
  dsimp only
  generalize ChangeDetails.ofRecord d.uuid d.toRecord = answer at read ⊢
  cases read
  rfl

/-- A message that names the request in flight and knows the count gets as far as closing it. -/
theorem attempt_eq_close {d details : ChangeDetails} {below : History}
    (tells : state.Tells (d :: below)) (inFlight : d.state = .prepared)
    (asked : p.space.request? d.uuid = .ok (some details)) (opened : details.state = .prepared)
    {m : Message} {context : Context} {closing : Closing}
    (closes : m.closes? = some (context, d.uuid, closing)) (terminal : closing.target ≠ .prepared)
    (fence : state.count = context.expected) (now : Timestamp) :
    p.attempt state m now = p.close state context d.uuid closing now := by
  have fenced : checkFence state context = .ok () := checkFence_eq_ok.2 fence
  have prepared : checkPrepared state d.uuid = .ok () := by
    refine checkPrepared_eq_ok.2 ⟨tells.mode.trans ?_, tells.latest⟩
    exact History.mode_eq_prepared_iff.2 ⟨d, below, rfl, inFlight⟩
  cases m with
  | prepare m => cases closes
  | commit m =>
    simp only [Message.closes?, Option.some.injEq, Prod.mk.injEq] at closes
    obtain ⟨rfl, same, rfl⟩ := closes
    simp only [attempt, closePrepared, fenced, same, Outcome.ok_bind, prepared]
  | rollback m =>
    simp only [Message.closes?, Option.some.injEq, Prod.mk.injEq] at closes
    obtain ⟨rfl, same, rfl⟩ := closes
    simp only [attempt, closePrepared, fenced, same, Outcome.ok_bind, prepared]
  | force m =>
    simp only [Message.closes?, Option.some.injEq, Prod.mk.injEq] at closes
    obtain ⟨rfl, same, rfl⟩ := closes
    have target : m.target ≠ .prepared := terminal
    have checked : p.checkForce state m = .ok () := by
      rw [checkForce, fenced, same, asked]
      simp [target, opened]
    simp only [attempt, force, checked, same]

/-- What became of a node that handled a message: it refused the message and kept
its store, or it took the message and keeps the history that follows. -/
inductive Handled {ε : Type} (p : Participant) (h : History) (m : Message) (now : Timestamp)
    (next : Participant) : Except ε Unit → Prop
  | refused (e : ε) (store : next.store = p.store)
      (limits : next.processor.limits = p.processor.limits) : Handled p h m now next (.error e)
  | accepted {h' : History} {changes : ChangeSet}
      (accepts : History.Accepts p.processor.limits h m now h') (keeps : next.space.Keeps h')
      (store : p.store.commit changes = .ok next.store)
      (stamp : next.space.text? Key.lastTimestamp = some now.storedText)
      (limits : next.processor.limits = p.processor.limits) (notes : changes.Notes h')
      (room : h'.length ≤ max h.length (chainLimit + 1)) : Handled p h m now next (.ok ())

theorem handled_prepare (keeps : p.space.Keeps h) (sound : History.Sound p.processor.limits h)
    (tells : state.Tells h) (m : Prepare) (now : Timestamp) :
    Handled p h (.prepare m) now (p.prepare state m now).1 (p.prepare state m now).2 := by
  unfold prepare
  split
  · exact .refused _ rfl rfl
  · rename_i result passed
    have accepts := accepts_of_checkPrepare keeps sound tells passed now
    have short := short_of_checkPrepare keeps sound tells passed
    obtain ⟨-, -, -, version, fresh, -, -⟩ := accepts.of_prepare
    split
    · rename_i store committed
      refine .accepted accepts ?_ committed ?_ rfl
        (notes_prepareWrites tells.count tells.latest version result now) ?_
      · rw [space, Store.space_commit committed]
        exact keeps.prepareWrites tells.count tells.latest fresh
      · rw [space, Store.space_commit committed, KeySpace.text?, get?_prepareWrites, if_pos rfl]
        rfl
      · rw [List.length_cons]
        omega
    · exact .refused _ rfl rfl

theorem handled_close {d : ChangeDetails} {below : History} (keeps : p.space.Keeps (d :: below))
    (sound : History.Sound p.processor.limits (d :: below)) (tells : state.Tells (d :: below))
    {m : Message} {context : Context} {closing : Closing}
    (closes : m.closing? = some (context, d.uuid, closing.target))
    (fence : state.count = context.expected) (inFlight : d.state = .prepared)
    (now : Timestamp) : Handled p (d :: below) m now
      (p.close state context d.uuid closing now).1
      (p.close state context d.uuid closing now).2 := by
  rw [close, keeps.requestRecord?_of_mem List.mem_cons_self]
  dsimp only
  split
  · exact .refused _ rfl rfl
  · rename_i details read
    have version : details.version = d.version := by
      rw [d.ofRecord_toRecord (sound.intact d List.mem_cons_self), Outcome.map_eq_ok] at read
      obtain ⟨created, -, rfl⟩ := read
      rfl
    split
    · rename_i effect
      have ⟨store, limits⟩ := takeEffect_keeps effect
      exact .refused _ store limits
    · rename_i q effect
      have ⟨store, limits⟩ := takeEffect_keeps effect
      split
      · rename_i written committed
        rw [store] at committed
        have terminal := Message.target_ne_prepared closes
        have next : d.version = History.version below + 1 := by
          cases sound with
          | cons _ _ _ next => exact next
        rw [version] at committed
        refine .accepted (.close closes (tells.count ▸ fence) inFlight) ?_ committed ?_ limits
          (notes_closeWrites inFlight tells.count next terminal now) (Nat.le_max_left _ _)
        · rw [space, Store.space_commit committed]
          exact keeps.closeWrites sound inFlight tells.count terminal
        · rw [space, Store.space_commit committed, KeySpace.text?, get?_closeWrites, if_pos rfl]
          rfl
      · exact .refused _ store limits

theorem Handled.mapError {ε ε' : Type} {m : Message} {now : Timestamp} {answer : Except ε Unit}
    (handled : Handled p h m now next answer) (f : ε → ε') :
    Handled p h m now next (answer.mapError f) := by
  cases handled with
  | refused e store limits => exact .refused _ store limits
  | accepted accepts keeps store stamp limits notes room =>
    exact .accepted accepts keeps store stamp limits notes room

/-- Every message is handled as the history of the node says. -/
theorem handled (keeps : p.space.Keeps h) (sound : History.Sound p.processor.limits h)
    (m : Message) (now : Timestamp) :
    Handled p h m now (p.handle m now).1 (p.handle m now).2 := by
  unfold handle
  split
  · exact .refused _ rfl rfl
  · rename_i state read
    have tells := tells_of_state keeps read
    refine Handled.mapError ?_ _
    rcases attempt_cases keeps sound tells m now with
      ⟨refusal, attempted⟩ | ⟨m, rfl⟩ | ⟨d, below, context, closing, rfl, inFlight, closes,
        terminal, fence, attempted⟩
    · rw [attempted]
      exact .refused _ rfl rfl
    · exact handled_prepare keeps sound tells m now
    · rw [attempted]
      exact handled_close keeps sound tells (Message.closing?_of_closes? closes terminal) fence
        inFlight now

end Participant
end Reconfig
