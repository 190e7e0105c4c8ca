/-
What a recovery may do, and what it does on nodes that do not fail.

A recovery only touches nodes that answered in the middle of a change, and never closes a change
against a node that answered. Whether every node has prepared the change that it commits it does
not ask, unless nobody has committed that change yet.
-/
import Reconfig.Proofs.Coordination.Forcing

namespace Reconfig

/-! ## Nodes with at most one request -/

namespace Snapshot.Shows

variable {s : Snapshot}

/-- What a node shows that has made one request. -/
theorem of_single {d : ChangeDetails} {uuid : Uuid} {state : ChangeState} (shows : s.Shows [d])
    (same : d.uuid = uuid) (is : d.state = state) :
    s.mode = (if state = .prepared then .prepared else .accepting) ∧ s.latestUuid = some uuid ∧
      s.stateOf? uuid = some state ∧ s.currentVersion = (if state = .committed then 1 else 0) ∧
      s.committedHead = if state = .committed then some uuid else none := by
  subst same is
  refine ⟨shows.mode, shows.latest, ?_, ?_, ?_⟩
  · simp [shows.stateOf?]
  · rw [shows.currentVersion, History.version_cons]
    exact Nat.zero_add _
  · rw [shows.committedHead, History.head, History.committed_cons]
    split <;> rfl

/-- What a node shows that has made none. -/
theorem of_new (shows : s.Shows []) (uuid : Uuid) : s.mode = .accepting ∧ s.stateOf? uuid = none ∧
    s.currentVersion = 0 ∧ s.committedHead = none :=
  ⟨shows.mode, by rw [shows.stateOf?]; rfl, shows.currentVersion, shows.committedHead⟩

end Snapshot.Shows

/-! ## Nodes that do not fail -/

namespace Fleet
namespace Healthy

variable {f : Fleet} {H : Histories} {nodes : List Address} {uuid : Uuid} {target : ChangeState}

theorem report (healthy : f.Healthy H nodes) (patience : Patience) :
    ∃ snapshots : Snapshots, snapshots.Show nodes H ∧
      f.report patience nodes = ⟨snapshots, []⟩ := by
  obtain ⟨snapshots, shown, answers, -⟩ :=
    healthy.discoverAll (some patience.discovery) fun _ mem => mem
  exact ⟨snapshots, shown, by rw [Fleet.report, answers, Report.ofAnswers_ok]⟩

/-- On nodes that do not fail, a recovery that decides to repair does so. -/
theorem resolves (healthy : f.Healthy H nodes) (distinct : nodes.Nodup) {patience : Patience}
    (decision : (f.report patience nodes).decision target = .ok (.resolve uuid))
    (sender : Sender) {clock : Clock} (readable : ∀ n, (clock n).Legible) :
    ((recoveryPass sender nodes target).run patience clock f).2 =
      .ok ⟨some uuid, target, (f.report patience nodes).prepared, []⟩ := by
  obtain ⟨terminal, plan⟩ := Report.decision_eq_ok.1 decision
  obtain ⟨snapshots, shown, checked, healthy⟩ := healthy.check patience clock
  have report : f.report patience nodes = ⟨snapshots, []⟩ := checked
  rw [report] at plan ⊢
  have holding := Report.holding_eq shown (Report.named_of_recoveryPlan plan)
  have held : ((Report.mk snapshots []).holding uuid).map (·.1) =
      (Report.mk snapshots []).prepared := by
    rw [holding, ChangePass.targets, List.map_map]
    exact List.map_id _
  obtain ⟨H', outcome, -⟩ := healthy.forceAll (shown.holding_nodup distinct uuid [])
    (fun target held => shown.mem_holding held) terminal sender [] .none patience readable
  rw [recoveryPass, if_neg terminal, Pass.run_bind, checked]
  simp only [plan, Pass.run_bind, outcome, held]
  rfl

end Healthy

/-! ## Three new nodes -/

def trioNodes : List Address := [⟨"a:1"⟩, ⟨"b:1"⟩, ⟨"c:1"⟩]

def trio : Fleet := pair.addNode ⟨"c:1"⟩ (.blank "c") .active

/-- The fleet after one message that nothing holds up. -/
def tell (f : Fleet) (node : Address) (m : Message) : Fleet :=
  (f.send node m none ⟨2024, 1, 1, 0, 0, 0, 0⟩).1

/-- Two of the nodes have prepared a founding. -/
def partlyPrepared : Fleet :=
  (trio.tell ⟨"a:1"⟩ (.prepare Participant.foundingPrepare)).tell ⟨"b:1"⟩
    (.prepare Participant.foundingPrepare)

/-- One of them has committed it. -/
def partlyFounded : Fleet :=
  partlyPrepared.tell ⟨"a:1"⟩ (.commit ⟨⟨1, "east", "ops"⟩, ⟨.replicate 32 1⟩⟩)

/-- What an operator's recovery toward COMMITTED makes of the three nodes. -/
def recovered (f : Fleet) : Fleet × Except Error RecoveryOutcome :=
  (recoveryPass ⟨"west", "ops"⟩ trioNodes .committed).run ⟨⟨1000⟩, ⟨1000⟩⟩
    .everySecond f

def recoveryCalls (f : Fleet) : List Call :=
  (recoveryPass ⟨"west", "ops"⟩ trioNodes .committed).transcript ⟨⟨1000⟩, ⟨1000⟩⟩
    .everySecond f

theorem recovered_eq {f : Fleet} {result : Except Error RecoveryOutcome}
    (ended : f.recovered.2 = result) : ∃ after, f.recovered = (after, result) :=
  ⟨f.recovered.1, Prod.ext rfl ended⟩

theorem trio_member {node : Address} {p : Participant} (member : trio.member? node = some p) :
    ∃ name, p = .blank name := by
  simp only [trio, addNode, member?, Dict.get?_insert] at member
  split at member
  · exact ⟨"c", (Option.some.inj member).symm⟩
  · rcases pair_member member with ⟨-, rfl⟩ | ⟨-, rfl⟩
    · exact ⟨"a", rfl⟩
    · exact ⟨"b", rfl⟩

theorem trio_lived (nodes : List Address) : trio.Lived nodes := by
  intro node _ p member
  obtain ⟨name, rfl⟩ := trio_member member
  exact ⟨_, _, .started .memory rfl (Participant.start_blank name)⟩

theorem Lived.tell {f : Fleet} {nodes : List Address} (lived : f.Lived nodes) (node : Address)
    (m : Message) : (f.tell node m).Lived nodes :=
  lived.send node m none (by decide)

theorem partlyPrepared_lived (nodes : List Address) : partlyPrepared.Lived nodes :=
  ((trio_lived nodes).tell _ _).tell _ _

theorem partlyFounded_lived (nodes : List Address) : partlyFounded.Lived nodes :=
  (partlyPrepared_lived nodes).tell _ _

theorem trio_healthy : trio.Healthy (fun _ => []) trioNodes where
  faults := rfl
  records := by
    constructor
    · intro node p member
      obtain ⟨name, rfl⟩ := trio_member member
      exact (Participant.start_keeps rfl (Participant.start_blank name)).1
    · exact fun _ => .nil
  sturdy := by
    constructor
    · intro node p member
      obtain ⟨name, rfl⟩ := trio_member member
      exact ⟨_, rfl⟩
    · intro node p member
      obtain ⟨name, rfl⟩ := trio_member member
      exact ⟨⟨none, rfl⟩, by simp⟩
  member node mem := by
    simp only [trioNodes, List.mem_cons, List.not_mem_nil, or_false] at mem
    rcases mem with rfl | rfl | rfl
    · exact ⟨.blank "a", rfl⟩
    · exact ⟨.blank "b", rfl⟩
    · exact ⟨.blank "c", rfl⟩
  short _ _ := Nat.zero_le _
  agree _ prepared := by cases prepared

theorem trio_shown {snapshots : Snapshots} {H : Histories} (shown : snapshots.Show trioNodes H) :
    ∃ s t v, snapshots = [(⟨"a:1"⟩, s), (⟨"b:1"⟩, t), (⟨"c:1"⟩, v)] ∧
      s.Shows (H ⟨"a:1"⟩) ∧ t.Shows (H ⟨"b:1"⟩) ∧ v.Shows (H ⟨"c:1"⟩) := by
  have nodes := shown.nodes
  simp only [trioNodes, List.map_eq_cons_iff, List.map_eq_nil_iff, Prod.exists] at nodes
  obtain ⟨_, s, _, rfl, rfl, _, t, _, rfl, rfl, _, v, _, rfl, rfl, rfl⟩ := nodes
  have each := shown.shows
  simp only [List.mem_cons, List.not_mem_nil, or_false, forall_eq_or_imp, forall_eq] at each
  exact ⟨s, t, v, rfl, each⟩

theorem partlyPrepared_healthy : ∃ H, partlyPrepared.Healthy H trioNodes ∧
    H.Founding [⟨"a:1"⟩, ⟨"b:1"⟩] ∧ H ⟨"c:1"⟩ = [] := by
  rw [partlyPrepared, tell, tell]
  have readable : Timestamp.Legible ⟨2024, 1, 1, 0, 0, 0, 0⟩ :=
    Timestamp.Storable.legible (by decide)
  have acceptedA : ((Participant.blank "a").handle (.prepare Participant.foundingPrepare)
      ⟨2024, 1, 1, 0, 0, 0, 0⟩).2 = .ok () := by decide +kernel
  have acceptedB : ((Participant.blank "b").handle (.prepare Participant.foundingPrepare)
      ⟨2024, 1, 1, 0, 0, 0, 0⟩).2 = .ok () := by decide +kernel
  have memA : (⟨"a:1"⟩ : Address) ∈ [(⟨"a:1"⟩ : Address), ⟨"b:1"⟩, ⟨"c:1"⟩] := by decide
  obtain ⟨d, uuidD, openD, -, healthy⟩ := trio_healthy.prepare
    (show trio.member? ⟨"a:1"⟩ = some (.blank "a") from rfl) acceptedA (by decide)
    (by simp [Participant.blank, Processor.new]) none readable
  have memberB := trio_healthy.member?_send memA (.prepare Participant.foundingPrepare) none
    ⟨2024, 1, 1, 0, 0, 0, 0⟩ (show (⟨"b:1"⟩ : Address) ≠ ⟨"a:1"⟩ by decide)
  have newB : Function.update (fun _ : Address => ([] : History)) ⟨"a:1"⟩ [d] ⟨"b:1"⟩ = [] :=
    Function.update_of_ne (by decide) _ _
  obtain ⟨e, uuidE, openE, -, healthy⟩ := healthy.prepare
    (memberB.trans (show trio.member? ⟨"b:1"⟩ = some (.blank "b") from rfl)) acceptedB
    (by rw [newB]; decide) (by simp [Participant.blank, Processor.new]) none readable
  rw [newB] at healthy
  refine ⟨_, healthy, ?_, ?_⟩
  · simp only [Histories.Founding, List.mem_cons, List.not_mem_nil, or_false, forall_eq_or_imp,
      forall_eq]
    refine ⟨⟨d, ?_, uuidD, openD⟩, ⟨e, Function.update_self .., uuidE, openE⟩⟩
    rw [Function.update_of_ne (by decide), Function.update_self]
  · rw [Function.update_of_ne (by decide), Function.update_of_ne (by decide)]

theorem partlyFounded_healthy : ∃ H d, partlyFounded.Healthy H trioNodes ∧
    H ⟨"a:1"⟩ = [d] ∧ d.uuid = ⟨.replicate 32 1⟩ ∧ d.state = .committed ∧
    H.Founding [⟨"b:1"⟩] ∧ H ⟨"c:1"⟩ = [] := by
  rw [partlyFounded, tell]
  obtain ⟨H, healthy, founding, new⟩ := partlyPrepared_healthy
  obtain ⟨d, shape, uuid, inFlight⟩ := founding ⟨"a:1"⟩ List.mem_cons_self
  have closing : (Message.commit ⟨⟨1, "east", "ops"⟩, ⟨.replicate 32 1⟩⟩).closing? =
      some (⟨1, "east", "ops"⟩, d.uuid, .committed) := by
    rw [uuid]
    rfl
  have fence : History.messages [d] = 1 := by
    rw [History.messages_cons, if_pos inFlight]
    rfl
  have readable : Timestamp.Legible ⟨2024, 1, 1, 0, 0, 0, 0⟩ :=
    Timestamp.Storable.legible (by decide)
  obtain ⟨-, healthy⟩ :=
    healthy.close List.mem_cons_self shape inFlight closing fence none readable
  refine ⟨_, _, healthy, Function.update_self .., uuid, rfl, fun node mem => ?_, ?_⟩
  · obtain rfl := List.mem_singleton.1 mem
    rw [Function.update_of_ne (by decide)]
    exact founding _ (by decide)
  · rw [Function.update_of_ne (by decide), new]

/-- What the snapshots of the three nodes say while the founding is merely prepared. -/
theorem partlyPrepared_report (patience : Patience) :
    (partlyPrepared.report patience trioNodes).state = .partiallyPrepared ⟨.replicate 32 1⟩ ∧
    ∃ s, (⟨"c:1"⟩, s) ∈ (partlyPrepared.report patience trioNodes).responses ∧ s.lineage = [] := by
  obtain ⟨H, healthy, founding, new⟩ := partlyPrepared_healthy
  obtain ⟨snapshots, shown, report⟩ := healthy.report patience
  obtain ⟨s, t, v, rfl, showsA, showsB, showsC⟩ := trio_shown shown
  obtain ⟨d, shapeA, uuidA, openA⟩ := founding ⟨"a:1"⟩ List.mem_cons_self
  obtain ⟨e, shapeB, uuidB, openB⟩ := founding ⟨"b:1"⟩ (by decide)
  rw [shapeA] at showsA
  rw [shapeB] at showsB
  rw [new] at showsC
  obtain ⟨modeA, latestA, stateA, -, headA⟩ := showsA.of_single uuidA openA
  obtain ⟨modeB, latestB, stateB, -, headB⟩ := showsB.of_single uuidB openB
  obtain ⟨modeC, stateC, -, headC⟩ := showsC.of_new ⟨.replicate 32 1⟩
  rw [report]
  refine ⟨?_, v, by simp, showsC.lineage⟩
  have one : ∀ entry ∈ [((⟨"a:1"⟩ : Address), s), (⟨"b:1"⟩, t), (⟨"c:1"⟩, v)],
      entry.2.mode = .prepared → entry.2.latestUuid = some ⟨.replicate 32 1⟩ := by
    simp [latestA, latestB, modeC]
  rw [Report.state, analyze_of_prepared List.mem_cons_self modeA one]
  simp only [Analysis.inFlight, Analysis.recordedAs, Analysis.heads, List.any_cons, List.any_nil,
    List.map_cons, List.map_nil, stateA, stateB, stateC, headA, headB, headC]
  rfl

/-- What they say when one of them has committed it. -/
theorem partlyFounded_report (patience : Patience) :
    (partlyFounded.report patience trioNodes).state = .partiallyCommitted ⟨.replicate 32 1⟩ ∧
    (partlyFounded.report patience trioNodes).prepared = [⟨"b:1"⟩] ∧
    ∃ s, (⟨"c:1"⟩, s) ∈ (partlyFounded.report patience trioNodes).responses ∧ s.lineage = [] := by
  obtain ⟨H, d, healthy, shapeA, uuidA, committed, founding, new⟩ := partlyFounded_healthy
  obtain ⟨snapshots, shown, report⟩ := healthy.report patience
  obtain ⟨s, t, v, rfl, showsA, showsB, showsC⟩ := trio_shown shown
  obtain ⟨e, shapeB, uuidB, openB⟩ := founding ⟨"b:1"⟩ List.mem_cons_self
  rw [shapeA] at showsA
  rw [shapeB] at showsB
  rw [new] at showsC
  obtain ⟨modeA, -, stateA, -⟩ := showsA.of_single uuidA committed
  obtain ⟨modeB, latestB, stateB, -⟩ := showsB.of_single uuidB openB
  obtain ⟨modeC, stateC, -⟩ := showsC.of_new ⟨.replicate 32 1⟩
  rw [report]
  refine ⟨?_, by simp [Report.prepared, modeA, modeB, modeC], v, by simp, showsC.lineage⟩
  have one : ∀ entry ∈ [((⟨"a:1"⟩ : Address), s), (⟨"b:1"⟩, t), (⟨"c:1"⟩, v)],
      entry.2.mode = .prepared → entry.2.latestUuid = some ⟨.replicate 32 1⟩ := by
    simp [latestB, modeA, modeC]
  rw [Report.state, analyze_of_prepared (List.mem_cons_of_mem _ List.mem_cons_self) modeB one]
  simp only [Analysis.inFlight, Analysis.recordedAs, List.any_cons, List.any_nil, stateA, stateB,
    stateC]
  rfl

/-- The recovery of the founding that one node has committed succeeds. -/
theorem partlyFounded_recovered : ∃ after, partlyFounded.recovered =
    (after, .ok ⟨some ⟨.replicate 32 1⟩, .committed, [⟨"b:1"⟩], []⟩) := by
  obtain ⟨verdict, prepared, -⟩ := partlyFounded_report ⟨⟨1000⟩, ⟨1000⟩⟩
  obtain ⟨H, d, healthy, -⟩ := partlyFounded_healthy
  have succeeded := healthy.resolves (by decide)
    (Report.decision_of_partiallyCommitted verdict) ⟨"west", "ops"⟩
    fun n => (Clock.storable_everySecond n).legible
  rw [prepared] at succeeded
  exact recovered_eq succeeded

end Fleet

/-! ## What a recovery may do -/

namespace RecoveryPass

variable {f after : Fleet} {sender : Sender} {target : ChangeState} {patience : Patience}
  {clock : Clock} {nodes : List Address} {result : Except Error RecoveryOutcome}

/-- A recovery forces the nodes that answered in the middle of a change, each once, if it decides
to repair, and touches no other node. It closes no change in a way in which a node that answered
has not closed it, and if it succeeds no such node is in the middle of a change. -/
theorem forces_only_prepared (lived : f.Lived nodes) (distinct : nodes.Nodup)
    (storable : ∀ n, (clock n).Storable)
    (ran : (recoveryPass sender nodes target).run patience clock f = (after, result)) :
    ∃ asked forced answered,
      (recoveryPass sender nodes target).transcript patience clock f =
        asked ++ forced.map (fun node => ⟨node, .force, answered node⟩) ∧
      (∀ call ∈ asked, call.phase = .discover) ∧
      Recovers f (f.report patience nodes) target forced answered after result := by
  obtain ⟨H, stand, -⟩ := lived.stand
  have ended := recoveryPass_run sender target patience clock f distinct stand
  have once := (f.responding_nodup patience distinct).sublist
    (f.report patience nodes).prepared_sublist
  rw [ran] at ended
  generalize (recoveryPass sender nodes target).transcript patience clock f = calls at ended ⊢
  cases ended with
  | @declined _ e _ decision same asked =>
    refine ⟨calls, [], fun _ => false, (List.append_nil _).symm, asked, List.nodup_nil,
      fun e' error => ?_, fun plan ok => ?_, fun node _ => same node, nofun, nofun,
      fun a _ b _ uuid splits => splits.of_same same, nofun⟩
    · rw [decision] at error
      cases error
      exact ⟨rfl, rfl⟩
    · rw [decision] at ok
      cases ok
  | idle decision same asked =>
    obtain ⟨-, plan⟩ := Report.decision_eq_ok.1 decision
    have none := Report.prepared_of_nothing (Fleet.report_shows patience stand) plan
    refine ⟨calls, [], fun _ => false, (List.append_nil _).symm, asked, List.nodup_nil,
      fun e error => ?_, fun _ _ => none.symm, fun node _ => same node, nofun, nofun,
      fun a _ b _ uuid splits => splits.of_same same, fun outcome succeeded => ?_⟩
    · rw [decision] at error
      cases error
    · cases succeeded
      refine ⟨none.symm, fun node mem => ?_⟩
      obtain ⟨p, member, rest⟩ := atRest_of_responding stand mem (by simp [none])
      exact ⟨p, (same node).trans member, rest⟩
  | @resolved uuid _ answered asks failures decision asked told reported =>
    refine ⟨asks, (f.report patience nodes).prepared, answered, rfl, asked, once,
      fun e error => ?_, fun _ _ => rfl, told.kept, fun node mem lost => ?_,
      fun node mem done => ?_,
      fun a memA b memB other => splits_before stand decision told storable memA memB,
      fun outcome succeeded => ?_⟩
    · rw [decision] at error
      cases error
    · obtain ⟨p, q, d, below, member, found, -, unchanged, -⟩ :=
        closed_of_told stand decision told storable mem
      exact ⟨p, q, member, found, unchanged lost⟩
    · obtain ⟨p, q, d, below, member, found, -, -, resolved⟩ :=
        closed_of_told stand decision told storable mem
      exact ⟨uuid, p, q, decision, member, found, (resolved done).1⟩
    · obtain ⟨⟨⟩, closed, rfl⟩ := Outcome.map_eq_ok.1 succeeded
      have all := all_answered reported closed
      exact ⟨List.filter_eq_self.2 all,
        fun node mem => atRest_of_told stand decision told storable all mem⟩

/-- The second of the three new nodes is forced, though the third one knows of no change. -/
theorem partlyFounded_forces_only_prepared : ∃ after asked q,
    Fleet.partlyFounded.recovered =
      (after, .ok ⟨some ⟨.replicate 32 1⟩, .committed, [⟨"b:1"⟩], []⟩) ∧
    Fleet.partlyFounded.recoveryCalls = asked ++ [⟨⟨"b:1"⟩, .force, true⟩] ∧
    (∀ call ∈ asked, call.phase = .discover) ∧
    after.member? ⟨"a:1"⟩ = Fleet.partlyFounded.member? ⟨"a:1"⟩ ∧
    after.member? ⟨"c:1"⟩ = Fleet.partlyFounded.member? ⟨"c:1"⟩ ∧
    after.member? ⟨"b:1"⟩ = some q ∧ q.AtRest ∧
    q.space.stateOf? ⟨.replicate 32 1⟩ = some .committed := by
  obtain ⟨verdict, prepared, -⟩ := Fleet.partlyFounded_report ⟨⟨1000⟩, ⟨1000⟩⟩
  obtain ⟨H, d, healthy, -, -, -, founding, -⟩ := Fleet.partlyFounded_healthy
  obtain ⟨e, shape, uuid, inFlight⟩ := founding ⟨"b:1"⟩ List.mem_cons_self
  have decision := Report.decision_of_partiallyCommitted verdict
  obtain ⟨after, ran⟩ := Fleet.partlyFounded_recovered
  obtain ⟨asked, forced, answered, calls, questions, recovers⟩ :=
    forces_only_prepared (Fleet.partlyFounded_lived _) (by decide) Clock.storable_everySecond ran
  obtain rfl : forced = [⟨"b:1"⟩] := (recovers.decided _ decision).trans prepared
  obtain ⟨-, rest⟩ := recovers.repaired _ rfl
  have responding := (Report.prepared_sublist _).subset (prepared ▸ List.mem_cons_self)
  obtain ⟨q, found, atRest⟩ := rest ⟨"b:1"⟩ responding
  cases answer : answered ⟨"b:1"⟩ with
  | false =>
    obtain ⟨p, r, member, found', unchanged⟩ :=
      recovers.refused ⟨"b:1"⟩ List.mem_cons_self answer
    cases found.symm.trans found'
    have held := (shape ▸ healthy.records.keeps member).stateOf?_eq_some.2
      ⟨e, List.mem_cons_self, rfl, inFlight⟩
    have space : q.space = p.space := congrArg Store.space unchanged.store
    rw [← space] at held
    exact absurd held (atRest.closed e.uuid)
  | true =>
    obtain ⟨u, p, r, resolve, member, found', resolved⟩ :=
      recovers.resolved ⟨"b:1"⟩ List.mem_cons_self answer
    cases found.symm.trans found'
    cases decision.symm.trans resolve
    rw [List.map_singleton, answer] at calls
    exact ⟨after, asked, q, ran, calls, questions, recovers.uncalled ⟨"a:1"⟩ (by decide),
      recovers.uncalled ⟨"c:1"⟩ (by decide), found, atRest, resolved.after⟩

end RecoveryPass

/-! ## Changes that a node has not prepared -/

/-- The node shows no request for the change. -/
def Snapshot.Lacks (s : Snapshot) (uuid : Uuid) : Prop := ∀ e ∈ s.lineage, e.uuid ≠ uuid

namespace RecoveryPass

variable {f after : Fleet} {sender : Sender} {patience : Patience} {clock : Clock}
  {nodes : List Address} {H : Histories} {result : Except Error RecoveryOutcome}

/-- A change that is said to be merely prepared is the newest one of each node that has it. -/
theorem latest_iff {uuid : Uuid} (stand : f.Stand nodes H)
    (verdict : (f.report patience nodes).state = .partiallyPrepared uuid)
    {entry : Address × Snapshot} (mem : entry ∈ (f.report patience nodes).responses) :
    entry.2.latestUuid = some uuid ↔ ¬ entry.2.Lacks uuid := by
  obtain ⟨called, p, member, shown⟩ := Fleet.report_found mem
  have stands := stand entry.1 called p member
  have shows := stands.shows shown
  obtain ⟨limits, sound⟩ := stands.sound
  rw [shows.latest, Snapshot.Lacks, shows.lineage, History.entries]
  constructor
  · intro newest lacks
    cases shape : H entry.1 with
    | nil =>
      rw [shape] at newest
      cases newest
    | cons d below =>
      rw [shape] at newest lacks
      exact lacks d.entry List.mem_cons_self (Option.some.inj newest)
  · intro held
    push Not at held
    obtain ⟨e, listed, same⟩ := held
    obtain ⟨d, mem', rfl⟩ := List.mem_map.1 listed
    have same : d.uuid = uuid := same
    have recorded : entry.2.stateOf? uuid = some d.state := by
      rw [stands.shown_stateOf? shown, stands.stateOf?_eq_some]
      exact ⟨d, mem', same, rfl⟩
    have inFlight := open_of_partiallyPrepared verdict mem recorded
    obtain ⟨below, shape⟩ := sound.eq_cons_of_prepared mem' inFlight
    rw [shape, History.latest_cons, same]

/-- A recovery refuses to commit a change that is merely prepared where a node that answered has
not prepared it. But it does commit a change that some node has committed, whichever nodes have
not prepared that. -/
theorem commits_despite_lacking (uuid : Uuid) (lived : f.Lived nodes) (distinct : nodes.Nodup)
    (storable : ∀ n, (clock n).Storable)
    (ran : (recoveryPass sender nodes .committed).run patience clock f = (after, result)) :
    ((f.report patience nodes).state = .partiallyPrepared uuid →
      (∃ entry ∈ (f.report patience nodes).responses, entry.2.Lacks uuid) →
      (∃ why, result = .error (.inconsistent why)) ∧
      (∀ call ∈ (recoveryPass sender nodes .committed).transcript patience clock f,
        call.phase = .discover) ∧
      ∀ node, after.member? node = f.member? node) ∧
    ((f.report patience nodes).state = .partiallyCommitted uuid ∨
        (f.report patience nodes).state = .partiallyPrepared uuid ∧
          (∀ entry ∈ (f.report patience nodes).responses, ¬ entry.2.Lacks uuid) →
      (f.report patience nodes).prepared ≠ [] ∧
      ∃ (asked : List Call) (answered : Address → Bool),
        (recoveryPass sender nodes .committed).transcript patience clock f =
          asked ++ (f.report patience nodes).prepared.map
            (fun node => ⟨node, .force, answered node⟩) ∧
        (∀ call ∈ asked, call.phase = .discover) ∧
        (∀ node ∈ (f.report patience nodes).prepared, answered node = true →
          ∃ p q, f.member? node = some p ∧ after.member? node = some q ∧
            p.Resolved q uuid .committed) ∧
        ∀ outcome, result = .ok outcome →
          ∀ node ∈ (f.report patience nodes).prepared, answered node = true) := by
  obtain ⟨H, stand, -⟩ := lived.stand
  have ended := recoveryPass_run sender .committed patience clock f distinct stand
  rw [ran] at ended
  constructor
  · rintro verdict ⟨entry, mem, lacks⟩
    obtain ⟨why, decision⟩ := Report.decision_of_missing verdict
      ⟨entry, mem, fun latest => (latest_iff stand verdict mem).1 latest lacks⟩
    obtain ⟨rfl, asked, same⟩ := ended.of_declined decision
    exact ⟨⟨why, rfl⟩, asked, same⟩
  · intro verdict
    obtain ⟨named, decision⟩ :
        (f.report patience nodes).state.changeUnderRepair = some uuid ∧
        (f.report patience nodes).decision .committed = .ok (.resolve uuid) := by
      rcases verdict with committed | ⟨prepared, present⟩
      · exact ⟨by rw [committed]; rfl, Report.decision_of_partiallyCommitted committed⟩
      · exact ⟨by rw [prepared]; rfl, Report.decision_of_present prepared fun entry mem =>
          (latest_iff stand prepared mem).2 (present entry mem)⟩
    obtain ⟨asked, answered, calls, questions, told, all⟩ := ended.of_resolved decision
    refine ⟨Report.prepared_ne_nil named, asked, answered, calls, questions,
      fun node mem done => ?_, all⟩
    obtain ⟨p, q, d, below, member, found, -, -, resolved⟩ :=
      closed_of_told stand decision told storable mem
    exact ⟨p, q, member, found, (resolved done).1⟩

/-- On the three nodes, of which the third one knows of no change, a recovery refuses to commit the
founding while it is merely prepared, and commits it on the second node once the first one has. -/
theorem partlyFounded_commits_despite_lacking :
    (∃ after why, Fleet.partlyPrepared.recovered = (after, .error (.inconsistent why)) ∧
      ∀ call ∈ Fleet.partlyPrepared.recoveryCalls, call.phase = .discover) ∧
    ∃ after asked p q,
      Fleet.partlyFounded.recovered =
        (after, .ok ⟨some ⟨.replicate 32 1⟩, .committed, [⟨"b:1"⟩], []⟩) ∧
      Fleet.partlyFounded.recoveryCalls = asked ++ [⟨⟨"b:1"⟩, .force, true⟩] ∧
      Fleet.partlyFounded.member? ⟨"b:1"⟩ = some p ∧ after.member? ⟨"b:1"⟩ = some q ∧
      p.Resolved q ⟨.replicate 32 1⟩ .committed ∧
      ∃ s, (⟨"c:1"⟩, s) ∈
          (Fleet.partlyFounded.report ⟨⟨1000⟩, ⟨1000⟩⟩ Fleet.trioNodes).responses ∧
        s.Lacks ⟨.replicate 32 1⟩ := by
  constructor
  · obtain ⟨verdict, s, mem, new⟩ := Fleet.partlyPrepared_report ⟨⟨1000⟩, ⟨1000⟩⟩
    have lacks : s.Lacks ⟨.replicate 32 1⟩ := by simp [Snapshot.Lacks, new]
    obtain ⟨after, ran⟩ := Fleet.recovered_eq (f := Fleet.partlyPrepared) rfl
    obtain ⟨refused, -⟩ := commits_despite_lacking ⟨.replicate 32 1⟩
      (Fleet.partlyPrepared_lived _) (by decide) Clock.storable_everySecond ran
    obtain ⟨⟨why, failed⟩, questions, -⟩ := refused verdict ⟨_, mem, lacks⟩
    exact ⟨after, why, ran.trans (congrArg _ failed), questions⟩
  · obtain ⟨verdict, prepared, s, mem, new⟩ := Fleet.partlyFounded_report ⟨⟨1000⟩, ⟨1000⟩⟩
    have lacks : s.Lacks ⟨.replicate 32 1⟩ := by simp [Snapshot.Lacks, new]
    obtain ⟨after, ran⟩ := Fleet.partlyFounded_recovered
    obtain ⟨-, committed⟩ := commits_despite_lacking ⟨.replicate 32 1⟩
      (Fleet.partlyFounded_lived _) (by decide) Clock.storable_everySecond ran
    obtain ⟨-, asked, answered, calls, -, resolved, all⟩ := committed (.inl verdict)
    rw [prepared] at calls resolved all
    have done := all _ rfl ⟨"b:1"⟩ List.mem_cons_self
    obtain ⟨p, q, before, found, resolved⟩ := resolved ⟨"b:1"⟩ List.mem_cons_self done
    rw [List.map_singleton, done] at calls
    exact ⟨after, asked, p, q, ran, calls, before, found, resolved, s, mem, lacks⟩

end RecoveryPass
end Reconfig
