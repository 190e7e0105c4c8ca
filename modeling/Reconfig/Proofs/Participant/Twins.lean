/-
A node that is started again cannot be told from one that was not.

What a node answers depends on its history and on the last sender, not on the times at which its
messages came, and over a store in memory it depends on nothing that is not in the store. Two nodes
with the same history, times aside, answer the same message in the same way, and have the same
history again. A node and the one that is started over its store are such a pair.
-/
import Reconfig.Proofs.Participant.Availability

namespace Reconfig

/-! ## What is left without the times -/

def ChangeDetails.untimed (d : ChangeDetails) : ChangeDetails := { d with created := default }

def NodeState.untimed (s : NodeState) : NodeState := { s with lastTimestamp := none }

def Snapshot.untimed (s : Snapshot) : Snapshot :=
  { s with lastTimestamp := none, latest := s.latest.map (·.untimed) }

namespace History

def untimed (h : History) : History := h.map (·.untimed)

variable {h k h' k' : History} {limits : Limits} {m : Message} {now later : Timestamp}

theorem committed_untimed (h : History) : committed h.untimed = untimed h.committed := by
  rw [committed, untimed, List.filter_map]
  rfl

theorem version_untimed (h : History) : version h.untimed = h.version := by
  rw [version, committed_untimed, untimed, List.length_map, version]

theorem topology_untimed (h : History) : topology h.untimed = h.topology := by
  rw [topology, committed_untimed, untimed, List.head?_map, Option.map_map]
  rfl

theorem latest_untimed (h : History) : latest h.untimed = h.latest := by
  rw [latest, untimed, List.head?_map, Option.map_map]
  rfl

theorem highest_untimed (h : History) : highest h.untimed = h.highest := by
  rw [highest, untimed, List.head?_map, Option.map_map]
  rfl

theorem mode_untimed (h : History) : mode h.untimed = h.mode := by
  cases h with
  | nil => rfl
  | cons d below => rfl

theorem messages_untimed (h : History) : messages h.untimed = h.messages := by
  rw [messages, untimed, List.map_map]
  rfl

theorem entries_untimed (h : History) : entries h.untimed = h.entries := by
  rw [entries, untimed, List.map_map]
  rfl

theorem length_untimed (h : History) : h.untimed.length = h.length := List.length_map _

/-- Histories that differ in times only grow in the same way. -/
theorem Accepts.untimed (alike : h.untimed = k.untimed) (first : Accepts limits h m now h')
    (second : Accepts limits k m later k') : h'.untimed = k'.untimed := by
  have latest : h.latest = k.latest := by rw [← latest_untimed h, alike, latest_untimed]
  have topology : h.topology = k.topology := by rw [← topology_untimed h, alike, topology_untimed]
  cases first with
  | @prepare _ m _ result _ _ _ _ valid =>
    obtain ⟨result', -, -, -, -, valid', rfl⟩ := second.of_prepare
    cases valid.symm.trans (topology ▸ valid')
    have made : (h.request m result now).untimed = (k.request m result later).untimed := by
      rw [request, request, latest]
      rfl
    exact List.cons_eq_cons.2 ⟨made, alike⟩
  | @close _ _ _ _ _ target closing =>
    obtain ⟨e, below, rfl, -, -, -, rfl⟩ := second.of_closing closing
    obtain ⟨newest, rest⟩ := List.cons_eq_cons.1 alike
    exact List.cons_eq_cons.2 ⟨congrArg (ChangeDetails.inState · target) newest, rest⟩

end History

theorem NodeState.snapshot_untimed (s : NodeState) (h : History) :
    (s.snapshot h).untimed = s.untimed.snapshot h.untimed := by
  rw [snapshot, snapshot, h.entries_untimed, History.untimed, List.head?_map]
  rfl

namespace Participant

/-- Whoever asks the nodes for their state and their topologies is told the same, but for times. -/
structure ShowAlike (p q : Participant) : Prop where
  discover : p.discover.map (·.untimed) = q.discover.map (·.untimed)
  committed : p.committedTopology = q.committedTopology
  upcoming : p.upcomingTopology = q.upcomingTopology
  runtime : p.runtimeTopology = q.runtimeTopology
  view : p.topologyView = q.topologyView

/-- Nobody who sends the nodes the same messages can tell them apart, whatever their clocks
show. -/
def Indistinguishable (p q : Participant) : Prop :=
  ∀ first second : List (Message × Timestamp), first.map (·.1) = second.map (·.1) →
    (∀ e ∈ first, e.2.Storable) → (∀ e ∈ second, e.2.Storable) →
    (p.handleAll first).2 = (q.handleAll second).2 ∧
      (p.handleAll first).1.ShowAlike (q.handleAll second).1

variable {p q : Participant} {h k : History} {s t : NodeState} {m : Message}
  {now later : Timestamp}

/-! ## Nodes that read the same -/

/-- The nodes check messages by the same limits, and read the same from their stores but for
times. -/
structure ReadAlike (p q : Participant) (s t : NodeState) : Prop where
  limits : p.processor.limits = q.processor.limits
  state : s.untimed = t.untimed
  request : ∀ uuid, ∃ c d, p.space.request? uuid = .ok c ∧ q.space.request? uuid = .ok d ∧
    c.map (·.untimed) = d.map (·.untimed)
  topology : p.space.committedTopology s.latest = q.space.committedTopology t.latest

namespace ReadAlike

variable (alike : p.ReadAlike q s t)

include alike

theorem mode : s.mode = t.mode := congrArg (·.mode) alike.state
theorem count : s.count = t.count := congrArg (·.count) alike.state
theorem latest : s.latest = t.latest := congrArg (·.latest) alike.state
theorem currentVersion : s.currentVersion = t.currentVersion :=
  congrArg (·.currentVersion) alike.state

theorem checkFence_eq (context : Context) : checkFence s context = checkFence t context := by
  rw [checkFence, checkFence, alike.count]

theorem checkClose_eq (m : Close) : checkClose s m = checkClose t m := by
  rw [checkClose, checkClose, alike.checkFence_eq, checkPrepared, checkPrepared, alike.mode,
    alike.latest]

theorem checkPrepare_eq (m : Prepare) : p.checkPrepare s m = q.checkPrepare t m := by
  obtain ⟨c, d, asked, asked', same⟩ := alike.request m.uuid
  have validate : p.processor.validate = q.processor.validate := by
    funext current change
    rw [Processor.validate, Processor.validate, alike.limits]
  have topology := alike.topology
  rw [alike.latest] at topology
  rw [Participant.checkPrepare, Participant.checkPrepare, alike.checkFence_eq, alike.mode,
    alike.latest, alike.currentVersion, asked, asked', topology, validate]
  cases c with
  | none =>
    cases d with
    | none => rfl
    | some e => cases same
  | some e =>
    cases d with
    | none => cases same
    | some e => rfl

theorem checkForce_eq (m : Force) : p.checkForce s m = q.checkForce t m := by
  obtain ⟨c, d, asked, asked', same⟩ := alike.request m.uuid
  rw [checkForce, checkForce, alike.checkFence_eq, asked, asked']
  cases c with
  | none =>
    cases d with
    | none => rfl
    | some e => cases same
  | some e =>
    cases d with
    | none => cases same
    | some e' =>
      have state : e.state = e'.state := congrArg (·.state) (Option.some.inj same)
      simp only [Outcome.mapError_ok, Outcome.ok_bind, state]

theorem check_eq (m : Message) : p.check s m = q.check t m := by
  cases m with
  | prepare m => rw [Participant.check, Participant.check, alike.checkPrepare_eq m]
  | commit m => exact alike.checkClose_eq m
  | rollback m => exact alike.checkClose_eq m
  | force m => exact alike.checkForce_eq m

end ReadAlike

/-! ## What a message leaves as it is -/

/-- A node that was to carry out a message is the same node, and writes what it accepts with the
sender and the time. -/
structure Attempted (p : Participant) (context : Context) (now : Timestamp)
    (done : Participant × Except Refusal Unit) : Prop where
  name : done.1.name = p.name
  limits : done.1.processor.limits = p.processor.limits
  writes : done.2 = .ok () → ∃ changes,
    p.store.commit (provenance changes context now) = .ok done.1.store

theorem Attempted.refused (p : Participant) (context : Context) (now : Timestamp)
    (refusal : Refusal) : p.Attempted context now (p, .error refusal) := ⟨rfl, rfl, nofun⟩

theorem name_takeEffect (p : Participant) (d : ChangeDetails) (closing : Closing) :
    (p.takeEffect d closing).1.name = p.name := by
  unfold takeEffect
  split <;> rfl

theorem attempted_close (p : Participant) (state : NodeState) (context : Context) (uuid : Uuid)
    (closing : Closing) (now : Timestamp) :
    p.Attempted context now (p.close state context uuid closing now) := by
  unfold close
  split
  · exact .refused p context now _
  · split
    · exact .refused p context now _
    · rename_i details _
      have name := p.name_takeEffect details closing
      split
      · rename_i effect
        rw [effect] at name
        exact ⟨name, (takeEffect_keeps effect).2, nofun⟩
      · rename_i effect
        rw [effect] at name
        obtain ⟨store, limits⟩ := takeEffect_keeps effect
        split
        · rename_i committed
          exact ⟨name, limits, fun _ => ⟨_, store ▸ committed⟩⟩
        · exact ⟨name, limits, nofun⟩

theorem attempted_closePrepared (p : Participant) (state : NodeState) (m : Close)
    (closing : Closing) (now : Timestamp) :
    p.Attempted m.context now (p.closePrepared state m closing now) := by
  unfold closePrepared
  split
  · exact .refused p m.context now _
  · exact p.attempted_close state m.context m.uuid closing now

theorem attempted (p : Participant) (state : NodeState) (m : Message) (now : Timestamp) :
    p.Attempted m.context now (p.attempt state m now) := by
  cases m with
  | prepare m =>
    show p.Attempted m.context now (p.prepare state m now)
    unfold prepare
    split
    · exact .refused p m.context now _
    · split
      · rename_i committed
        exact ⟨rfl, rfl, fun _ => ⟨_, committed⟩⟩
      · exact .refused p m.context now _
  | commit m => exact p.attempted_closePrepared state m .commit now
  | rollback m => exact p.attempted_closePrepared state m .rollback now
  | force m =>
    show p.Attempted m.context now (p.force state m now)
    unfold force
    split
    · exact .refused p m.context now _
    · exact p.attempted_close state m.context m.uuid (.force m.target) now

theorem identity_handle (p : Participant) (m : Message) (now : Timestamp) :
    (p.handle m now).1.name = p.name ∧
      (p.handle m now).1.processor.limits = p.processor.limits := by
  unfold handle
  split
  · exact ⟨rfl, rfl⟩
  · rename_i state _
    obtain ⟨name, limits, -⟩ := p.attempted state m now
    exact ⟨name, limits⟩

/-- The sender of the last message that the node accepted. -/
def lastSender (p : Participant) : Option String × Option String :=
  (p.space.text? Key.lastHost, p.space.text? Key.lastUser)

theorem lastSender_of_store (same : q.store = p.store) : q.lastSender = p.lastSender := by
  rw [lastSender, lastSender, space, space, same]

theorem lastSender_of_ok (done : (p.handle m now).2 = .ok ()) :
    (p.handle m now).1.lastSender = (some m.context.host, some m.context.user) := by
  cases read : p.state with
  | error e =>
    simp only [Participant.handle, read] at done
    cases done
  | ok state =>
    rw [answer_of_state read, Outcome.mapError_eq_ok] at done
    obtain ⟨changes, committed⟩ := (p.attempted state m now).writes done
    have next : (p.handle m now).1 = (p.attempt state m now).1 := by
      simp only [Participant.handle, read]
    have space := Store.space_commit committed
    simp only [lastSender, Participant.space, next, space, KeySpace.text?, get?_provenance]
    rfl

/-! ## Twins -/

/-- The node keeps its store in memory, nobody objects, and the committed topology is in effect.
This is its history. -/
structure Upright (p : Participant) (h : History) : Prop where
  unhindered : p.unlimited.Unhindered ⟨none⟩ h
  runtime : p.runtimeTopology = h.topology

theorem Upright.handle (upright : p.Upright h) (m : Message) (storable : now.Storable) :
    ∃ h', (p.handle m now).1.Upright h' ∧
      ((p.handle m now).2 = .ok () ∧ History.Accepts ⟨none⟩ h m now h' ∨
        (∃ r, (p.handle m now).2 = .error r) ∧ h' = h ∧
          (p.handle m now).1.store = p.store) := by
  obtain ⟨unhindered, runtime⟩ := upright
  obtain ⟨⟨accepted, settled⟩, memory, -⟩ := id unhindered
  rcases p.handle_unlimited m now with same | ⟨unchanged, r, refused⟩
  · obtain ⟨h', next, taken⟩ := unhindered.handle_cases m storable
    have inEffect : p.unlimited.InEffect h := ⟨memory, runtime⟩
    obtain ⟨-, runtime'⟩ := inEffect.handle settled taken
    rw [same] at next taken runtime'
    refine ⟨h', ⟨next, runtime'⟩,
      taken.imp_right fun ⟨⟨r, refused⟩, kept⟩ => ⟨⟨r, refused⟩, kept, ?_⟩⟩
    have store := settled.store_of_refused (same ▸ refused)
    rw [same] at store
    exact store
  · rw [unchanged]
    exact ⟨h, ⟨unhindered, runtime⟩, .inr ⟨⟨r, refused⟩, rfl, rfl⟩⟩

/-- With nobody to object a node answers what its checks say. -/
theorem Upright.answer (upright : p.Upright h) (m : Message) (now : Timestamp) : ∃ s,
    p.state = .ok s ∧ (p.handle m now).2 = (p.check s m).mapError (p.rejection s m.phase) := by
  obtain ⟨⟨⟨accepted, settled⟩, memory, unopposed⟩, -⟩ := upright
  obtain ⟨s, read, tells⟩ := settled.state_eq_ok
  have read : p.state = .ok s := read
  have finds : p.FindsLatest s := settled.findsLatest tells
  refine ⟨s, read, ?_⟩
  rw [answer_of_state read]
  rcases finds.attempt_eq memory m now with checked | ⟨-, opposed, -⟩
  · rw [checked]
  · exact absurd unopposed opposed

theorem Settled.state_untimed {limits : Limits} {accepted : List Prepare}
    (settled : Settled limits accepted p h) (read : p.state = .ok s) : s.untimed =
      ⟨h.mode, h.messages, h.version, h.highest, h.latest, p.lastSender.1, p.lastSender.2,
        none⟩ := by
  rw [Participant.state, settled.keeps.nodeState_eq, Outcome.mapError_eq_ok, Outcome.map_eq_ok]
    at read
  obtain ⟨_, -, rfl⟩ := read
  rfl

/-- The nodes differ in nothing but their listeners and the times that they stored. -/
structure Twins (p q : Participant) (h k : History) : Prop where
  name : p.name = q.name
  limits : p.processor.limits = q.processor.limits
  sender : p.lastSender = q.lastSender
  first : p.Upright h
  second : q.Upright k
  alike : h.untimed = k.untimed

namespace Twins

variable (twins : Twins p q h k)

include twins

theorem length_eq : h.length = k.length := by
  rw [← h.length_untimed, twins.alike, k.length_untimed]

theorem topology_eq : h.topology = k.topology := by
  rw [← h.topology_untimed, twins.alike, k.topology_untimed]

theorem state_eq (read : p.state = .ok s) (read' : q.state = .ok t) : s.untimed = t.untimed := by
  obtain ⟨⟨⟨_, settled⟩, -⟩, -⟩ := twins.first
  obtain ⟨⟨⟨_, settled'⟩, -⟩, -⟩ := twins.second
  have alike := twins.alike
  have mode : h.mode = k.mode := by rw [← h.mode_untimed, alike, k.mode_untimed]
  have count : h.messages = k.messages := by rw [← h.messages_untimed, alike, k.messages_untimed]
  have version : h.version = k.version := by rw [← h.version_untimed, alike, k.version_untimed]
  have highest : h.highest = k.highest := by rw [← h.highest_untimed, alike, k.highest_untimed]
  have latest : h.latest = k.latest := by rw [← h.latest_untimed, alike, k.latest_untimed]
  have sender : p.unlimited.lastSender = q.unlimited.lastSender := twins.sender
  rw [settled.state_untimed read, settled'.state_untimed read', mode, count, version, highest,
    latest, sender]

theorem readAlike (read : p.state = .ok s) (read' : q.state = .ok t) : p.ReadAlike q s t := by
  obtain ⟨⟨⟨_, settled⟩, -⟩, -⟩ := twins.first
  obtain ⟨⟨⟨_, settled'⟩, -⟩, -⟩ := twins.second
  refine ⟨twins.limits, twins.state_eq read read', fun uuid => ?_, ?_⟩
  · refine ⟨_, _, settled.request?_eq uuid, settled'.request?_eq uuid, ?_⟩
    have found : ∀ l : History, (l.find? (·.uuid == uuid)).map (·.untimed) =
        l.untimed.find? (·.uuid == uuid) := by
      intro l
      rw [History.untimed, List.find?_map]
      rfl
    rw [found, found, twins.alike]
  · have latest := (tells_of_state settled.keeps read).latest
    have latest' := (tells_of_state settled'.keeps read').latest
    have committed := settled.keeps.committedTopology_of_created settled.sound settled.created
    have committed' := settled'.keeps.committedTopology_of_created settled'.sound settled'.created
    rw [← latest, twins.length_eq, twins.topology_eq] at committed
    rw [← latest'] at committed'
    exact committed.trans committed'.symm

theorem rejection_eq (read : p.state = .ok s) (read' : q.state = .ok t) (phase : Phase) :
    p.rejection s phase = q.rejection t phase := by
  have same := twins.state_eq read read'
  have host : s.lastHost = t.lastHost := congrArg (·.lastHost) same
  have user : s.lastUser = t.lastUser := congrArg (·.lastUser) same
  funext refusal
  cases refusal with
  | reason reason => rw [rejection, rejection, twins.name, host, user]
  | error e => rfl

/-- Twins answer alike, whenever they are asked. -/
theorem answer_eq (m : Message) (now later : Timestamp) :
    (p.handle m now).2 = (q.handle m later).2 := by
  obtain ⟨s, read, answer⟩ := twins.first.answer m now
  obtain ⟨t, read', answer'⟩ := twins.second.answer m later
  rw [answer, answer', (twins.readAlike read read').check_eq, twins.rejection_eq read read']

/-- And they are twins again after the message. -/
theorem handle (m : Message) (storable : now.Storable) (storable' : later.Storable) :
    ∃ h' k', Twins (p.handle m now).1 (q.handle m later).1 h' k' := by
  obtain ⟨name, limits⟩ := p.identity_handle m now
  obtain ⟨name', limits'⟩ := q.identity_handle m later
  have answer := twins.answer_eq m now later
  obtain ⟨h', first, taken⟩ := twins.first.handle m storable
  obtain ⟨k', second, taken'⟩ := twins.second.handle m storable'
  have alike : (p.handle m now).1.lastSender = (q.handle m later).1.lastSender ∧
      h'.untimed = k'.untimed := by
    rcases taken with ⟨done, accepts⟩ | ⟨⟨r, refused⟩, rfl, store⟩
    · rcases taken' with ⟨done', accepts'⟩ | ⟨⟨r, refused'⟩, -⟩
      · exact ⟨(lastSender_of_ok done).trans (lastSender_of_ok done').symm,
          accepts.untimed twins.alike accepts'⟩
      · cases done.symm.trans (answer.trans refused')
    · rcases taken' with ⟨done', -⟩ | ⟨-, rfl, store'⟩
      · cases refused.symm.trans (answer.trans done')
      · refine ⟨?_, twins.alike⟩
        rw [lastSender_of_store store, lastSender_of_store store', twins.sender]
  exact ⟨h', k', name.trans (twins.name.trans name'.symm),
    limits.trans (twins.limits.trans limits'.symm), alike.1, first, second, alike.2⟩

theorem discover_eq : p.discover.map (·.untimed) = q.discover.map (·.untimed) := by
  obtain ⟨⟨⟨_, settled⟩, -⟩, -⟩ := twins.first
  obtain ⟨⟨⟨_, settled'⟩, -⟩, -⟩ := twins.second
  obtain ⟨s, read, -⟩ := settled.state_eq_ok
  obtain ⟨t, read', -⟩ := settled'.state_eq_ok
  have discover : p.discover = _ := settled.discover_eq read
  have discover' : q.discover = _ := settled'.discover_eq read'
  rw [discover, discover', twins.length_eq]
  split
  · have shown : (s.snapshot h).untimed = (t.snapshot k).untimed := by
      rw [s.snapshot_untimed, t.snapshot_untimed, twins.state_eq read read', twins.alike]
    exact congrArg Except.ok shown
  · rfl

theorem committed_eq : p.committedTopology = q.committedTopology := by
  obtain ⟨⟨⟨_, settled⟩, -⟩, -⟩ := twins.first
  obtain ⟨⟨⟨_, settled'⟩, -⟩, -⟩ := twins.second
  have committed : p.committedTopology = _ := settled.committedTopology_eq
  have committed' : q.committedTopology = _ := settled'.committedTopology_eq
  rw [committed, committed', twins.length_eq, twins.topology_eq]

theorem runtime_eq : p.runtimeTopology = q.runtimeTopology := by
  rw [twins.first.runtime, twins.second.runtime, twins.topology_eq]

theorem upcoming_eq : p.upcomingTopology = q.upcomingTopology := by
  have committed := twins.committed_eq
  obtain ⟨-, -, -, ⟨⟨⟨_, settled⟩, -⟩, -⟩, ⟨⟨⟨_, settled'⟩, -⟩, -⟩, alike⟩ := twins
  cases h with
  | nil =>
    cases k with
    | nil => exact settled.upcomingTopology_nil.trans settled'.upcomingTopology_nil.symm
    | cons e below => cases alike
  | cons d below =>
    cases k with
    | nil => cases alike
    | cons e below' =>
      have newest := (List.cons_eq_cons.1 alike).1
      have state : d.state = e.state := congrArg (·.state) newest
      have result : d.result = e.result := congrArg (·.result) newest
      have upcoming : p.upcomingTopology = if d.state = .rolledBack then p.committedTopology
        else .ok (some d.result) := settled.upcomingTopology_cons
      have upcoming' : q.upcomingTopology = if e.state = .rolledBack then q.committedTopology
        else .ok (some e.result) := settled'.upcomingTopology_cons
      rw [upcoming, upcoming', state, result, committed]

theorem showAlike : p.ShowAlike q where
  discover := twins.discover_eq
  committed := twins.committed_eq
  upcoming := twins.upcoming_eq
  runtime := twins.runtime_eq
  view := by rw [topologyView, topologyView, twins.upcoming_eq, twins.runtime_eq]

end Twins

/-- Twins stay twins through any number of messages. -/
theorem Twins.indistinguishable (twins : Twins p q h k) : p.Indistinguishable q := by
  intro first second same storable storable'
  induction first generalizing p q h k second with
  | nil =>
    obtain rfl := List.map_eq_nil_iff.1 same.symm
    exact ⟨rfl, twins.showAlike⟩
  | cons e rest ih =>
    obtain ⟨⟨m, later⟩, rest', rfl, rfl, others⟩ := List.map_eq_cons_iff.1 same.symm
    obtain ⟨now, storable⟩ := List.forall_mem_cons.1 storable
    obtain ⟨now', storable'⟩ := List.forall_mem_cons.1 storable'
    obtain ⟨h', k', next⟩ := twins.handle e.1 now now'
    obtain ⟨answers, shown⟩ := ih next rest' others.symm storable storable'
    refine ⟨?_, shown⟩
    simp only [handleAll, answers]
    rw [twins.answer_eq e.1 e.2 later]

/-! ## A node that is started again -/

theorem LivesOn.upright {name : String} {processor : Processor} {log : Exchanges}
    (started : start name .empty processor = .ok p) (lives : p.LivesOn log q)
    (unopposed : q.processor.Unopposed) : ∃ h, q.Upright h ∧ h.length = log.prepared.length := by
  have new : p.IsNew := ⟨_, _, _, .memory, started⟩
  rw [start_empty] at started
  cases started
  obtain ⟨h, settled, memory, runtime⟩ := lives.inEffect ⟨⟨_, rfl⟩, rfl⟩ new.settled
  exact ⟨h, ⟨⟨⟨_, settled⟩, memory, unopposed⟩, runtime⟩, by simp [settled.length_eq]⟩

/-- A node and the one that takes over its store are twins. -/
theorem Upright.twins (upright : q.Upright h) {listeners : List Listener}
    (agree : ∀ l ∈ listeners, l.Agrees) : Twins q
      ⟨q.name, q.store, (Processor.new q.processor.limits listeners).load h.topology⟩ h h := by
  obtain ⟨⟨⟨accepted, keeps, sound, -, stamp, created, room, requests, recounts⟩, memory, -⟩, -⟩ :=
    id upright
  have taken : Upright
      ⟨q.name, q.store, (Processor.new q.processor.limits listeners).load h.topology⟩ h :=
    ⟨⟨⟨accepted, keeps, sound, rfl, stamp, created, room, requests, recounts⟩, memory, agree⟩, rfl⟩
  exact ⟨rfl, rfl, rfl, upright, taken, rfl⟩

/-- A node over a store in memory that is started again with its limits writes nothing, and then
cannot be told from one that was not. Neither of them works with a chain that is too long. -/
theorem LivesOn.restart_unseen {name : String} {processor : Processor} {log : Exchanges}
    (started : start name .empty processor = .ok p) (lives : p.LivesOn log q)
    (unopposed : q.processor.Unopposed) {listeners : List Listener}
    (agree : ∀ l ∈ listeners, l.Agrees) : q.store.initialized = .ok q.store ∧
    ∃ r, start q.name q.store (.new q.processor.limits listeners) =
        (if log.prepared.length ≤ chainLimit then .ok r
          else .error (.corrupted "change chain loops")) ∧
      (chainLimit < log.prepared.length →
        q.discover = .error (.corrupted "change chain loops")) ∧
      r.store = q.store ∧ q.Indistinguishable r := by
  obtain ⟨h, upright, length⟩ := lives.upright started unopposed
  obtain ⟨⟨⟨accepted, settled⟩, -⟩, -⟩ := id upright
  have restarted := settled.start_eq q.name (.new q.processor.limits listeners)
  rw [length] at restarted
  exact ⟨settled.initialized, _, restarted, fun long => settled.discover_eq_error (length ▸ long),
    rfl, (upright.twins agree).indistinguishable⟩

/-- A node is started again while it holds its founding. -/
theorem contested_restart_unseen : ∃ (p q r : Participant) (refusal : Rejection) (s : Snapshot),
    start "n" .empty (.new ⟨none⟩ []) = .ok p ∧
    p.LivesOn [(.prepare foundingPrepare, .ok ()), (.prepare rivalPrepare, .error refusal)] q ∧
    q.discover = .ok s ∧ s.mode = .prepared ∧
    start q.name q.store (.new q.processor.limits []) = .ok r ∧ r.store = q.store ∧
    q.Indistinguishable r := by
  obtain ⟨p, q, _, d, refusal, started, lives, -, ⟨⟨_, settled⟩, -, unopposed⟩, -, -, inFlight,
    -⟩ := contested_lives
  have few : 1 ≤ chainLimit := by decide
  obtain ⟨-, r, restarted, -, store, same⟩ :=
    lives.restart_unseen started unopposed (List.forall_mem_nil _)
  have stands : q.Stands [d] := ⟨_, _, settled⟩
  obtain ⟨s, found⟩ := stands.shown_iff.2 few
  have holding := History.mode_eq_prepared_iff.2 ⟨d, [], rfl, inFlight⟩
  exact ⟨p, q, r, refusal, s, started, lives, found, (stands.shows found).mode.trans holding,
    restarted.trans (if_pos few), store, same⟩

end Participant
end Reconfig
