/-
How a repair that is told no direction finds one.

Such a repair asks the nodes twice. The first answers give it the direction, and its recovery acts
on the second ones. In between other coordinators may go on. So a direction that was chosen on
idle nodes, where there is nothing to repair, may meet a change that nobody has committed.
-/
import Reconfig.Proofs.Coordination.Recoveries

namespace Reconfig

/-! ## The calls of such a repair -/

/-- A repair over the nodes has asked them in two rounds before it sent its messages. -/
structure TwoRounds (nodes : List Address)
    (first second : List (Address × Except CallError Snapshot)) (log : List Event) : Prop where
  calls : ∃ asks again sents, log = asks ++ (again ++ sents) ∧ Discovery nodes first asks ∧
    Discovery nodes second again ∧ ∀ event ∈ sents, ∃ node m delivery answer,
      event = .sent node (.force m) delivery answer

namespace TwoRounds

variable {nodes : List Address} {first second : List (Address × Except CallError Snapshot)}
  {log : List Event} (rounds : TwoRounds nodes first second log) {entry : Address × Snapshot}
include rounds

theorem asked_of_first (mem : entry ∈ (Report.ofAnswers first).responses) :
    .asked entry.1 (.ok entry.2) ∈ log := by
  obtain ⟨asks, again, sents, rfl, round, -, -⟩ := rounds.calls
  exact List.mem_append_left _ (round.mem_iff.2 ⟨_, Report.mem_responses.1 mem, rfl⟩)

theorem asked_of_second (mem : entry ∈ (Report.ofAnswers second).responses) :
    .asked entry.1 (.ok entry.2) ∈ log := by
  obtain ⟨asks, again, sents, rfl, -, round, -⟩ := rounds.calls
  exact List.mem_append_right _ (List.mem_append_left _
    (round.mem_iff.2 ⟨_, Report.mem_responses.1 mem, rfl⟩))

end TwoRounds

theorem repairPass_logs {sender : Sender} {nodes : List Address} {log : List Event}
    {result : Option (Except Error RecoveryOutcome)}
    (logs : (repairPass sender nodes none).Logs log result) :
    (∀ event ∈ log, event.IsQuestion) ∨ ∃ answers asks rest target, Discovery nodes answers asks ∧
      (Report.ofAnswers answers).state.repairTarget = .ok target ∧
      (recoveryPass sender nodes target).Logs rest result ∧ log = asks ++ rest := by
  unfold repairPass at logs
  cases logs with
  | stopped => simp
  | asking round made => exact .inl fun event mem => round.isQuestion event (made.subset mem)
  | @asked _ _ answers asks rest _ round rest =>
    dsimp only [Pass.bind] at rest
    split at rest
    · left
      cases rest <;> simpa using round.isQuestion
    · rename_i target chosen
      exact .inr ⟨answers, asks, _, target, round, chosen, rest, rfl⟩

/-- A repair that forces a change has chosen the direction in its first round, and its recovery has
decided on the second one. -/
theorem repairPass_forced {sender : Sender} {nodes : List Address} {log : List Event}
    {result : Option (Except Error RecoveryOutcome)}
    (logs : (repairPass sender nodes none).Logs log result) {node : Address} {m : Force}
    {delivery : Option (Timestamp × Answer)} {answer : Except CallError Unit}
    (forced : .sent node (.force m) delivery answer ∈ log) :
    ∃ first second, TwoRounds nodes first second log ∧
      (Report.ofAnswers first).state.repairTarget = .ok m.target ∧
      (Report.ofAnswers second).recoveryPlan m.target = .ok (.resolve m.uuid) := by
  rcases repairPass_logs logs with
    questions | ⟨first, asks, rest, target, round, chosen, recovery, rfl⟩
  · exact (questions _ forced).elim
  · have forced : .sent node (.force m) delivery answer ∈ rest := by
      rcases List.mem_append.1 forced with mem | mem
      · exact (round.isQuestion _ mem).elim
      · exact mem
    rcases recoveryPass_logs recovery with questions |
      ⟨second, again, sents, uuid, -, round', plan, sent, rfl⟩
    · exact (questions _ forced).elim
    · rcases List.mem_append.1 forced with mem | mem
      · exact (round'.isQuestion _ mem).elim
      · obtain ⟨_, _, _, same, -⟩ := sent _ mem
        cases same
        refine ⟨first, second, ⟨asks, again, sents, rfl, round, round', fun event mem => ?_⟩,
          chosen, plan⟩
        obtain ⟨called, delivery, answer, rfl, -⟩ := sent event mem
        exact ⟨called.1, _, delivery, answer, rfl⟩

/-- A repair chooses to commit where a node has committed the change that is in flight, and where
nothing is in flight. -/
theorem ClusterState.repairTarget_eq_committed {state : ClusterState}
    (chosen : state.repairTarget = .ok .committed) :
    (∃ version head, state = .consistent version head) ∨
      ∃ uuid, state = .partiallyCommitted uuid := by
  cases state with
  | consistent version head => exact .inl ⟨version, head, rfl⟩
  | partiallyCommitted uuid => exact .inr ⟨uuid, rfl⟩
  | partiallyPrepared uuid => cases chosen
  | partiallyRolledBack uuid => cases chosen
  | lagging behind => cases chosen
  | unrecoverable why => cases chosen
  | undetermined => cases chosen

/-- A node that holds its newest request, and has not closed it, has it prepared. -/
theorem Snapshot.Shows.open_of_latest {s : Snapshot} {h : History} {uuid : Uuid} (shows : s.Shows h)
    (latest : s.latestUuid = some uuid) (uncommitted : s.stateOf? uuid ≠ some .committed)
    (unrolled : s.stateOf? uuid ≠ some .rolledBack) :
    ∃ d below, h = d :: below ∧ d.uuid = uuid ∧ d.state = .prepared := by
  rw [shows.latest] at latest
  rw [shows.stateOf?] at uncommitted unrolled
  cases h with
  | nil => cases latest
  | cons d below =>
    obtain rfl : d.uuid = uuid := Option.some.inj latest
    refine ⟨d, below, rfl, rfl, ?_⟩
    cases state : d.state with
    | prepared => rfl
    | committed => simp [state] at uncommitted
    | rolledBack => simp [state] at unrolled

/-! ## What happens between two calls -/

theorem Fleet.records_of_lived {f : Fleet} (lived : ∀ nodes, f.Lived nodes) :
    ∃ H, f.Records H := by
  obtain ⟨H, records, -⟩ := records_of_each fun node p member => by
    obtain ⟨limits, accepted, lives⟩ := lived [node] node List.mem_cons_self p member
    obtain ⟨h, settled⟩ := lives.settled
    exact ⟨h, settled.keeps, settled.limits ▸ settled.sound⟩
  exact ⟨H, records⟩

/-- What the calls of a log have made of the history of a node. -/
structure History.Since (log : List Event) (node : Address) (h h' : History) : Prop where
  leads : Leads h h'
  made : ∀ d ∈ h', (∃ e ∈ h, e.uuid = d.uuid) ∨ ∃ m now back,
    .sent node (.prepare m) (some (now, .ok ())) back ∈ log ∧ m.uuid = d.uuid

namespace Fleet.ServesAll

variable {f g : Fleet} {H : Histories} {log : List Event}

theorem since (served : f.ServesAll log g) (records : f.Records H) :
    ∃ H', g.Records H' ∧ ∀ node, History.Since log node (H node) (H' node) := by
  induction served generalizing H with
  | none => exact ⟨H, records, fun node => ⟨.refl, fun d mem => .inl ⟨d, mem, rfl⟩⟩⟩
  | @call f next last event log served _ ih =>
    obtain ⟨between, evolves, records, -⟩ := served.evolves records
    obtain ⟨H', records', since⟩ := ih records
    refine ⟨H', records', fun node => ⟨(evolves.leads node).trans (since node).leads,
      fun d mem => ?_⟩⟩
    rcases (since node).made d mem with ⟨e, mem, same⟩ | ⟨m, now, back, sent, same⟩
    · rcases evolves.cases_at node with kept | ⟨limits, m, now, back, rfl, accepts⟩
      · exact .inl ⟨e, kept ▸ mem, same⟩
      · generalize H node = h at accepts
        generalize between node = h' at accepts mem
        cases accepts with
        | prepare =>
          rcases List.mem_cons.1 mem with rfl | mem
          · exact .inr ⟨_, now, back, List.mem_cons_self, same⟩
          · exact .inl ⟨e, mem, same⟩
        | @close c =>
          rcases List.mem_cons.1 mem with rfl | mem
          · exact .inl ⟨c, List.mem_cons_self, same⟩
          · exact .inl ⟨e, List.mem_cons_of_mem _ mem, same⟩
    · exact .inr ⟨m, now, back, List.mem_cons_of_mem _ sent, same⟩

/-- A node that answers shows its history. -/
theorem asked {node : Address} {s : Snapshot}
    (served : f.ServesAll (.asked node (.ok s) :: log) g) (records : f.Records H) :
    ∃ (next : Fleet) (limits : Limits), next.ServesAll log g ∧ next.Records H ∧ s.Shows (H node) ∧
      History.Sound limits (H node) := by
  cases served with
  | @call _ next _ _ _ now later =>
    cases now with
    | asked member found =>
      exact ⟨_, _, later, ⟨records.keeps, records.sound⟩,
        Participant.shows_of_discover (records.keeps member) (records.sound member) found,
        records.sound member⟩

end Fleet.ServesAll

/-- A repair that is told no direction goes over the online ones of the nodes, while others do
their jobs. The trace holds all their calls, those of the repair without a name. -/
structure RepairedBeside {κ : Type} [DecidableEq κ] (sender : Sender)
    (nodes : List (Address × LogicalState)) (jobs : κ → Job) (start : Fleet)
    (trace : List (Option κ × Event)) (after : Fleet) : Prop where
  served : start.ServesAll (trace.map (·.2)) after
  repair : ∃ result, (onlineRepairPass sender nodes none).Logs (logOf none trace) result
  others : ∀ i, (jobs i).Logs (logOf (some i) trace)

/-- A change pass has had the change prepared on the node, after the node answered the first round
of a repair with the snapshot `s`, and before it answered the second one with `t`. -/
def PreparedBetween {κ : Type} (jobs : κ → Job) (trace : List (Option κ × Event)) (node : Address)
    (s t : Snapshot) (uuid : Uuid) : Prop :=
  ∃ before between later i m now back,
    trace = before ++ (none, .asked node (.ok s)) ::
      (between ++ (none, .asked node (.ok t)) :: later) ∧
    (some i, .sent node (.prepare m) (some (now, .ok ())) back) ∈ between ∧ m.uuid = uuid ∧
    ∃ sender nodes, jobs i = .change sender uuid nodes m.change

/-- A node that had committed the change in the first round does not answer the second one. -/
def Withdrawn (first second : Report) (uuid : Uuid) : Prop :=
  ∃ entry ∈ first.responses, entry.2.stateOf? uuid = some .committed ∧
    ∀ t, (entry.1, t) ∉ second.responses

/-- The first round knows nothing of the change, and each node that answers both rounds has
prepared it in between. -/
structure Overtaken {κ : Type} (jobs : κ → Job) (trace : List (Option κ × Event))
    (first second : Report) (uuid : Uuid) : Prop where
  unnamed : first.state.changeUnderRepair ≠ some uuid
  prepared : ∀ node s t, (node, s) ∈ first.responses → (node, t) ∈ second.responses →
    PreparedBetween jobs trace node s t uuid

/-- A node answers the first round before the second one, and until then the repair only asks. -/
theorem TwoRounds.order {κ : Type} [DecidableEq κ] {trace : List (Option κ × Event)}
    {nodes : List Address} {first second : List (Address × Except CallError Snapshot)}
    (rounds : TwoRounds nodes first second (logOf none trace)) {node : Address} {s t : Snapshot}
    (shown : (node, s) ∈ (Report.ofAnswers first).responses)
    (again : (node, t) ∈ (Report.ofAnswers second).responses) : ∃ before between later,
      trace = before ++ (none, .asked node (.ok s)) ::
        (between ++ (none, .asked node (.ok t)) :: later) ∧
      ∀ event, (none, event) ∈ between → event.IsQuestion := by
  obtain ⟨asks, asks', sents, calls, round, round', -⟩ := rounds.calls
  obtain ⟨early, rest, rfl, logged, calls⟩ := logOf_eq_append calls
  obtain ⟨late, last, rfl, logged', -⟩ := logOf_eq_append calls
  have mem : (none, .asked node (.ok s)) ∈ early := mem_logOf.1
    (logged ▸ round.mem_iff.2 ⟨_, Report.mem_responses.1 shown, rfl⟩)
  have mem' : (none, .asked node (.ok t)) ∈ late := mem_logOf.1
    (logged' ▸ round'.mem_iff.2 ⟨_, Report.mem_responses.1 again, rfl⟩)
  obtain ⟨before, between, rfl⟩ := List.append_of_mem mem
  obtain ⟨between', later, rfl⟩ := List.append_of_mem mem'
  refine ⟨before, between ++ between', later ++ last, by simp, fun event made => ?_⟩
  rcases List.mem_append.1 made with made | made
  · refine round.isQuestion _ (logged ▸ mem_logOf.2 ?_)
    exact List.mem_append_right _ (List.mem_cons_of_mem _ made)
  · refine round'.isQuestion _ (logged' ▸ mem_logOf.2 ?_)
    exact List.mem_append_left _ made

namespace RepairedBeside

variable {κ : Type} [DecidableEq κ] {sender : Sender} {nodes : List (Address × LogicalState)}
  {jobs : κ → Job} {start after : Fleet} {trace : List (Option κ × Event)} {H : Histories}
  {first second : List (Address × Except CallError Snapshot)} {uuid : Uuid}

/-- What two answers of one node to the repair have to do with each other. -/
theorem answered_twice (beside : RepairedBeside sender nodes jobs start trace after)
    (records : start.Records H)
    (rounds : TwoRounds ((filterOnline nodes).map (·.1)) first second (logOf none trace))
    {node : Address} {s t : Snapshot} (shown : (node, s) ∈ (Report.ofAnswers first).responses)
    (again : (node, t) ∈ (Report.ofAnswers second).responses) : ∃ h h',
      s.Shows h ∧ (∃ limits, History.Sound limits h) ∧
      t.Shows h' ∧ (∃ limits, History.Sound limits h') ∧ History.Leads h h' ∧
      ∀ d ∈ h', (∃ e ∈ h, e.uuid = d.uuid) ∨ PreparedBetween jobs trace node s t d.uuid := by
  obtain ⟨before, between, later, shape, questions⟩ := rounds.order shown again
  have served := beside.served
  rw [shape, List.map_append, List.map_cons, List.map_append, List.map_cons] at served
  obtain ⟨f₁, earlier, served⟩ := served.split
  obtain ⟨H₁, records₁, -⟩ := earlier.since records
  obtain ⟨f₂, limits, served, records₂, shows, sound⟩ := served.asked records₁
  obtain ⟨f₃, meanwhile, served⟩ := served.split
  obtain ⟨H₃, records₃, since⟩ := meanwhile.since records₂
  obtain ⟨-, limits', -, -, shows', sound'⟩ := served.asked records₃
  refine ⟨H₁ node, H₃ node, shows, ⟨limits, sound⟩, shows', ⟨limits', sound'⟩, (since node).leads,
    fun d mem => ?_⟩
  rcases (since node).made d mem with old | ⟨m, now, back, sent, same⟩
  · exact .inl old
  · right
    obtain ⟨⟨j, _⟩, made, rfl⟩ := List.mem_map.1 sent
    cases j with
    | none => exact (questions _ made).elim
    | some i =>
      have logged : .sent node (.prepare m) (some (now, .ok ())) back ∈ logOf (some i) trace := by
        rw [mem_logOf, shape]
        exact List.mem_append_right _ (List.mem_cons_of_mem _ (List.mem_append_left _ made))
      obtain ⟨sender', nodes', -, -, job, -⟩ := Job.of_prepare (beside.others i) logged
      exact ⟨before, between, later, i, m, now, back, shape, made, same, sender', nodes',
        same ▸ job⟩

theorem answered (beside : RepairedBeside sender nodes jobs start trace after)
    (records : start.Records H)
    (rounds : TwoRounds ((filterOnline nodes).map (·.1)) first second (logOf none trace))
    {entry : Address × Snapshot} (mem : entry ∈ (Report.ofAnswers second).responses) :
    ∃ h, entry.2.Shows h := by
  obtain ⟨before, later, shape⟩ := List.append_of_mem (mem_logOf.1 (rounds.asked_of_second mem))
  have served := beside.served
  rw [shape, List.map_append, List.map_cons] at served
  obtain ⟨f₁, earlier, served⟩ := served.split
  obtain ⟨H₁, records₁, -⟩ := earlier.since records
  obtain ⟨-, -, -, -, shows, -⟩ := served.asked records₁
  exact ⟨_, shows⟩

/-- A node that had committed the change under repair cannot answer that it has it prepared. -/
theorem withdrawn (beside : RepairedBeside sender nodes jobs start trace after)
    (records : start.Records H)
    (rounds : TwoRounds ((filterOnline nodes).map (·.1)) first second (logOf none trace))
    (verdict : (Report.ofAnswers first).state = .partiallyCommitted uuid)
    (inFlight : ∀ entry ∈ (Report.ofAnswers second).responses, ∀ h, entry.2.Shows h →
      ∃ d below, h = d :: below ∧ d.uuid = uuid ∧ d.state = .prepared) :
    Withdrawn (Report.ofAnswers first) (Report.ofAnswers second) uuid := by
  obtain ⟨⟨node, s⟩, shown, recorded⟩ := recorded_of_partiallyCommitted verdict
  refine ⟨(node, s), shown, recorded, fun t again => ?_⟩
  obtain ⟨h, h', shows, -, shows', ⟨limits, sound'⟩, leads, -⟩ :=
    beside.answered_twice records rounds shown again
  obtain ⟨e, below, rfl, same, openE⟩ := inFlight _ again h' shows'
  rw [shows.stateOf?, Option.map_eq_some_iff] at recorded
  obtain ⟨d, found, committed⟩ := recorded
  have same' : d.uuid = uuid := by simpa using List.find?_some found
  have prepared := leads.open_of_open sound'.uuids_nodup openE (List.mem_of_find?_eq_some found)
    (same'.trans same.symm)
  rw [committed] at prepared
  cases prepared

theorem overtaken (beside : RepairedBeside sender nodes jobs start trace after)
    (records : start.Records H)
    (rounds : TwoRounds ((filterOnline nodes).map (·.1)) first second (logOf none trace))
    (chosen : (Report.ofAnswers first).state.repairTarget = .ok .committed)
    (unnamed : (Report.ofAnswers first).state.changeUnderRepair ≠ some uuid)
    (inFlight : ∀ entry ∈ (Report.ofAnswers second).responses, ∀ h, entry.2.Shows h →
      ∃ d below, h = d :: below ∧ d.uuid = uuid ∧ d.state = .prepared) :
    Overtaken jobs trace (Report.ofAnswers first) (Report.ofAnswers second) uuid := by
  refine ⟨unnamed, fun node s t shown again => ?_⟩
  obtain ⟨h, h', shows, ⟨limits, sound⟩, shows', ⟨limits', sound'⟩, leads, made⟩ :=
    beside.answered_twice records rounds shown again
  obtain ⟨e, below, rfl, rfl, openE⟩ := inFlight _ again h' shows'
  rcases made e List.mem_cons_self with ⟨d, mem, same⟩ | between
  · -- the first round would have named the change that the node held open
    exfalso
    have openD := leads.open_of_open sound'.uuids_nodup openE mem same
    obtain ⟨below', rfl⟩ := sound.eq_cons_of_prepared mem openD
    have mode : s.mode = .prepared :=
      shows.mode.trans (History.mode_eq_prepared_iff.2 ⟨d, below', rfl, openD⟩)
    have latest : s.latestUuid = some e.uuid := by rw [shows.latest, History.latest_cons, same]
    rcases ClusterState.repairTarget_eq_committed chosen with ⟨version, head, verdict⟩ |
      ⟨other, verdict⟩
    · rw [latest_of_analyze verdict shown mode] at latest
      cases latest
    · have named : (Report.ofAnswers first).state.changeUnderRepair = some other := by
        rw [verdict]
        rfl
      exact unnamed (latest_of_named named shown mode latest ▸ named)
  · exact between

/-- A repair that is told no direction commits a change where a node has shown its recovery that
it has committed it. It also does so where all nodes have shown that they have it prepared: then
a node that had committed the change has gone, or other coordinators have prepared the change on
all these nodes since the repair chose its direction. -/
theorem commits_committed_or_prepared (beside : RepairedBeside sender nodes jobs start trace after)
    (lived : ∀ nodes, start.Lived nodes) {node : Address} {context : Context}
    {delivery : Option (Timestamp × Answer)} {answer : Except CallError Unit}
    (forced : (none, .sent node (.force ⟨context, uuid, .committed⟩) delivery answer) ∈ trace) :
    ∃ first second,
      TwoRounds ((filterOnline nodes).map (·.1)) first second (logOf none trace) ∧
      (Report.ofAnswers first).state.repairTarget = .ok .committed ∧
      ((∃ entry ∈ (Report.ofAnswers second).responses,
          entry.2.stateOf? uuid = some .committed) ∨
        (∀ entry ∈ (Report.ofAnswers second).responses,
          entry.2.mode = .prepared ∧ entry.2.latestUuid = some uuid) ∧
        (Withdrawn (Report.ofAnswers first) (Report.ofAnswers second) uuid ∨
          Overtaken jobs trace (Report.ofAnswers first) (Report.ofAnswers second) uuid)) := by
  obtain ⟨H, records⟩ := Fleet.records_of_lived lived
  obtain ⟨result, logs⟩ := beside.repair
  obtain ⟨first, second, rounds, chosen, plan⟩ := repairPass_forced logs (mem_logOf.2 forced)
  refine ⟨first, second, rounds, chosen, ?_⟩
  obtain ⟨-, committing⟩ := Report.of_recoveryPlan plan
  obtain ⟨unrolled, latest⟩ := committing rfl
  cases seen : Analysis.recordedAs (Report.ofAnswers second).responses uuid .committed with
  | true => exact .inl (Analysis.recordedAs_eq_true.1 seen)
  | false =>
    have inFlight : ∀ entry ∈ (Report.ofAnswers second).responses, ∀ h, entry.2.Shows h →
        ∃ d below, h = d :: below ∧ d.uuid = uuid ∧ d.state = .prepared :=
      fun entry mem h shows => shows.open_of_latest (latest seen entry mem)
        (Analysis.recordedAs_eq_false.1 seen entry mem)
        (Analysis.recordedAs_eq_false.1 unrolled entry mem)
    refine .inr ⟨fun entry mem => ⟨?_, latest seen entry mem⟩, ?_⟩
    · obtain ⟨h, shows⟩ := beside.answered records rounds mem
      obtain ⟨d, below, shape, -, prepared⟩ := inFlight entry mem h shows
      exact shows.mode.trans (History.mode_eq_prepared_iff.2 ⟨d, below, shape, prepared⟩)
    · by_cases named : (Report.ofAnswers first).state.changeUnderRepair = some uuid
      · left
        rcases ClusterState.repairTarget_eq_committed chosen with ⟨version, head, verdict⟩ |
          ⟨other, verdict⟩
        · rw [verdict] at named
          cases named
        · obtain rfl : other = uuid := by
            rw [verdict] at named
            exact Option.some.inj named
          exact beside.withdrawn records rounds verdict inFlight
      · exact .inr (beside.overtaken records rounds chosen named inFlight)

end RepairedBeside

/-! ## A founding that overtakes a repair -/

theorem repairPass_begins {sender : Sender} {nodes : List Address} {target : ChangeState}
    {snapshots : Snapshots} {H : Histories} {log : List Event}
    {result : Option (Except Error RecoveryOutcome)} (shown : snapshots.Show nodes H)
    (chosen : (Report.mk snapshots []).state.repairTarget = .ok target)
    (rest : (recoveryPass sender nodes target).Logs log result) :
    (repairPass sender nodes none).Logs
      (snapshots.map (fun entry => .asked entry.1 (.ok entry.2)) ++ log) result := by
  have round := Discovery.of_snapshots snapshots
  rw [shown.nodes] at round
  refine .asked round ?_
  simp only [Pass.bind, Report.ofAnswers_ok, chosen]
  exact rest

/-- The calls of a repair and of one other coordinator, which makes all of its own while the repair
waits. -/
def turns (first second third : List Event) : List (Option Unit × Event) :=
  first.map (none, ·) ++ second.map (some (), ·) ++ third.map (none, ·)

theorem logOf_turns (first second third : List Event) :
    logOf none (turns first second third) = first ++ third ∧
      logOf (some ()) (turns first second third) = second := by
  simp only [turns, logOf_append, logOf_map, reduceCtorEq, if_true, if_false, List.append_nil,
    List.nil_append, and_self]

theorem RepairedBeside.of_turns {sender : Sender} {nodes : List (Address × LogicalState)}
    {job : Job} {start f g after : Fleet} {first second third : List Event}
    {result : Option (Except Error RecoveryOutcome)} (served₁ : start.ServesAll first f)
    (served₂ : f.ServesAll second g) (served₃ : g.ServesAll third after)
    (repair : (onlineRepairPass sender nodes none).Logs (first ++ third) result)
    (other : job.Logs second) :
    RepairedBeside sender nodes (fun _ => job) start (turns first second third) after := by
  obtain ⟨own, others⟩ := logOf_turns first second third
  refine ⟨?_, ⟨result, own ▸ repair⟩, fun () => by rwa [others]⟩
  have calls : (turns first second third).map (·.2) = first ++ (second ++ third) := by
    simp [turns, Function.comp_def]
  rw [calls]
  exact served₁.append (served₂.append served₃)

/-- Two new nodes tell a repair that there is nothing to repair. Then they prepare their founding
change, and the repair commits it on the first node. -/
theorem RepairedBeside.founding_overtakes : ∃ trace context delivery after,
    RepairedBeside ⟨"west", "ops"⟩ [(⟨"a:1"⟩, .passive), (⟨"b:1"⟩, .active)]
      (fun _ : Unit => .foundation) Fleet.pair trace after ∧
    (none, .sent ⟨"a:1"⟩ (.force ⟨context, ⟨.replicate 32 1⟩, .committed⟩) delivery (.ok ())) ∈
      trace ∧
    (∀ node s, (none, .asked node (.ok s)) ∈ trace →
      s.stateOf? ⟨.replicate 32 1⟩ ≠ some .committed) ∧
    ∃ p, after.member? ⟨"a:1"⟩ = some p ∧
      p.space.stateOf? ⟨.replicate 32 1⟩ = some .committed := by
  let now : Timestamp := ⟨2024, 1, 1, 0, 0, 1, 0⟩
  have memA : (⟨"a:1"⟩ : Address) ∈ [(⟨"a:1"⟩ : Address), ⟨"b:1"⟩] := List.mem_cons_self
  obtain ⟨asks, f₀, shown, healthy, asked, untouched⟩ := Fleet.pair_healthy.discoverAll_serves none
  obtain ⟨asks', f₁, H, sentA, sentB, shown', healthy, held, prepared, -, -⟩ :=
    healthy.pair_prepared untouched (.inl rfl)
  obtain ⟨again, f₂, reshown, healthy, reasked, -⟩ := healthy.discoverAll_serves none
  obtain ⟨d, shape, uuid, inFlight⟩ := held ⟨"a:1"⟩ memA
  have closing : (Job.foundingForce .committed).closing? =
      some (Sender.context ⟨"west", "ops"⟩ 1, d.uuid, .committed) := by
    rw [uuid]
    rfl
  have fence : History.messages [d] = 1 := by
    rw [History.messages_cons, if_pos inFlight]
    rfl
  obtain ⟨delivery, -, serves⟩ :=
    healthy.send_serves memA (Job.foundingForce .committed) none now
  have forced := serves _ (.inl rfl)
  obtain ⟨accepted, healthy⟩ := healthy.close memA shape inFlight closing fence none
    (show now.Legible from Timestamp.Storable.legible (by decide))
  rw [accepted] at forced
  have consistent : (Report.mk asks []).state = .consistent 0 none :=
    shown.analyze_of_level (by simp) fun _ _ => ⟨rfl, rfl, rfl⟩
  have chosen : (Report.mk asks []).state.repairTarget = .ok .committed := by
    rw [consistent]
    rfl
  have course : (ChangePass.carryOut ⟨"east", "ops"⟩ ⟨.replicate 32 1⟩ 1 Participant.founding
      [(⟨"a:1"⟩, 0), (⟨"b:1"⟩, 0)]).Logs
      [.sent ⟨"a:1"⟩ (.prepare Participant.foundingPrepare) sentA (.ok ()),
        .sent ⟨"b:1"⟩ (.prepare Participant.foundingPrepare) sentB (.ok ())] none :=
    .sent (.sent .stopped)
  have change : Job.foundation.Logs _ := @Job.changer_logs .committed _ _ shown' course
  -- the repair goes on to the second node, but need not get there
  have recovery : (Job.recovery ⟨"west", "ops"⟩ [⟨"a:1"⟩, ⟨"b:1"⟩] .committed).Logs _ :=
    Job.repairer_logs (by decide) reshown held delivery none (.ok ())
  rw [List.append_cons] at recovery
  obtain ⟨result, recovery⟩ := recovery.of_append
  have repair := repairPass_begins shown chosen recovery
  refine ⟨_, Sender.context ⟨"west", "ops"⟩ 1, delivery, _,
    .of_turns asked prepared (reasked.append (.call forced .none)) repair change, ?_,
    fun node s mem => ?_, ?_⟩
  · rw [← mem_logOf, (logOf_turns _ _ _).1]
    exact List.mem_append_right _ (List.mem_append_right _ List.mem_cons_self)
  · rw [← mem_logOf, (logOf_turns _ _ _).1, List.mem_append, List.mem_append] at mem
    rcases mem with mem | mem | mem
    · obtain ⟨entry, found, same⟩ := List.mem_map.1 mem
      cases same
      simp [(shown.shows entry found).stateOf?]
    · obtain ⟨entry, found, same⟩ := List.mem_map.1 mem
      cases same
      obtain ⟨e, shape, uuid, open_⟩ := held entry.1 (reshown.node_mem found)
      simp [(reshown.shows entry found).stateOf?, shape, uuid, open_]
    · cases List.mem_singleton.1 mem
  · obtain ⟨p, member⟩ := healthy.member ⟨"a:1"⟩ memA
    have keeps := healthy.records.keeps member
    rw [Function.update_self] at keeps
    exact ⟨p, member, keeps.stateOf?_eq_some.2 ⟨_, List.mem_cons_self, uuid, rfl⟩⟩

/-- The founding is the change that the repair commits, though none of its answers shows that a node
has committed it. -/
theorem RepairedBeside.founding_commits : ∃ trace after,
    RepairedBeside ⟨"west", "ops"⟩ [(⟨"a:1"⟩, .passive), (⟨"b:1"⟩, .active)]
      (fun _ : Unit => .foundation) Fleet.pair trace after ∧
    (∃ p, after.member? ⟨"a:1"⟩ = some p ∧
      p.space.stateOf? ⟨.replicate 32 1⟩ = some .committed) ∧
    ∃ first second, TwoRounds [⟨"a:1"⟩, ⟨"b:1"⟩] first second (logOf none trace) ∧
      (∀ entry ∈ (Report.ofAnswers second).responses,
        entry.2.mode = .prepared ∧ entry.2.latestUuid = some ⟨.replicate 32 1⟩ ∧
        entry.2.stateOf? ⟨.replicate 32 1⟩ ≠ some .committed) ∧
      Overtaken (fun _ : Unit => .foundation) trace (.ofAnswers first) (.ofAnswers second)
        ⟨.replicate 32 1⟩ := by
  obtain ⟨trace, context, delivery, after, beside, forced, unseen, committed⟩ := founding_overtakes
  obtain ⟨first, second, rounds, -, grounds⟩ :=
    beside.commits_committed_or_prepared ChangePass.pair_lived forced
  have unseen : ∀ entry : Address × Snapshot, .asked entry.1 (.ok entry.2) ∈ logOf none trace →
      entry.2.stateOf? ⟨.replicate 32 1⟩ ≠ some .committed :=
    fun entry mem => unseen entry.1 entry.2 (mem_logOf.1 mem)
  rcases grounds with ⟨entry, mem, shown⟩ | ⟨prepared, ⟨entry, mem, shown, -⟩ | overtaken⟩
  · exact absurd shown (unseen entry (rounds.asked_of_second mem))
  · exact absurd shown (unseen entry (rounds.asked_of_first mem))
  · exact ⟨trace, after, beside, committed, first, second, rounds,
      fun entry mem => ⟨(prepared entry mem).1, (prepared entry mem).2,
        unseen entry (rounds.asked_of_second mem)⟩, overtaken⟩

end Reconfig
