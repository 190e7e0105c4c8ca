/-
What an interrupted change pass leaves behind.

However many of its calls fail and whenever it stops, a change pass adds at most
its own request to the history of a node. Once a node has committed it, every
node has prepared it and none has rolled it back, so the verdict on the nodes
names the change, and the way in which it can be brought to an end.
-/
import Reconfig.Proofs.Coordination.Provenance
import Reconfig.Proofs.Coordination.Shown

namespace Reconfig

/-- The histories after a change pass that was stopped at some point. -/
structure Interrupted (nodes : List Address) (uuid : Uuid) (H₀ H : Histories) : Prop where
  fresh : ∀ node, ∀ d ∈ H₀ node, d.uuid ≠ uuid
  each : ∀ node, H node = H₀ node ∨ ∃ d, H node = d :: H₀ node ∧ d.uuid = uuid
  together : (∃ node, ∃ d ∈ H node, d.uuid = uuid ∧ d.state = .committed) → ∀ node ∈ nodes,
    ∃ d, H node = d :: H₀ node ∧ d.uuid = uuid ∧ d.state ≠ .rolledBack

namespace Unfolds

variable {ι : Type} [DecidableEq ι] {jobs : ι → Job} {H₀ H : Histories}
  {trace : List (ι × Event)} {i : ι} {node : Address}

theorem carried_of_answer (unfolds : Unfolds jobs H₀ trace H) {m : Message}
    {delivery : Option (Timestamp × Answer)}
    (mem : (i, .sent node m delivery (.ok ())) ∈ trace) : ∃ now, delivery = some (now, .ok ()) := by
  induction unfolds with
  | start => cases mem
  | call _ _ evolves ih =>
    rcases List.mem_append.1 mem with mem | mem
    · exact ih mem
    · cases List.mem_singleton.1 mem
      cases evolves with
      | taken => exact ⟨_, rfl⟩

theorem each_of_change {sender : Sender} {uuid : Uuid} {nodes : List (Address × LogicalState)}
    {change : Change} (fresh : ∀ node, ∀ d ∈ H₀ node, d.uuid ≠ uuid)
    (only : ∀ i, jobs i = .change sender uuid nodes change)
    (unfolds : Unfolds jobs H₀ trace H) (node : Address) :
    H node = H₀ node ∨ ∃ d, H node = d :: H₀ node ∧ d.uuid = uuid := by
  induction unfolds with
  | start => exact .inl rfl
  | @call trace H H' i event earlier allowed evolves ih =>
    rcases evolves.cases_at node with same | ⟨limits, m, now, answer, rfl, accepts⟩
    · rw [same]
      exact ih
    · rw [only i] at allowed
      -- the message is one for the change, so it meets a request of the change or none
      have closes : ∀ context target, m.closing? = some (context, uuid, target) →
          H' node = H₀ node ∨ ∃ d, H' node = d :: H₀ node ∧ d.uuid = uuid := by
        intro context target closing
        obtain ⟨d, below, before, same, -, -, after⟩ := accepts.of_closing closing
        rcases ih with start | ⟨e, shape, -⟩
        · rw [start] at before
          exact absurd same (fresh node d (by rw [before]; exact List.mem_cons_self))
        · cases before.symm.trans shape
          exact .inr ⟨_, after, same⟩
      rcases Job.change_sent allowed (List.mem_append_right _ List.mem_cons_self) with
        ⟨p, rfl, rfl⟩ | ⟨context, rfl⟩ | ⟨context, rfl⟩
      · obtain ⟨result, -, -, -, absent, -, after⟩ := accepts.of_prepare
        rcases ih with start | ⟨d, shape, same⟩
        · rw [start] at after
          exact .inr ⟨_, after, rfl⟩
        · exact absurd same (absent d (by rw [shape]; exact List.mem_cons_self))
      · exact closes context _ rfl
      · exact closes context _ rfl

theorem interrupted {sender : Sender} {uuid : Uuid} {nodes : List (Address × LogicalState)}
    {change : Change} {trace : List (Unit × Event)}
    (fresh : ∀ node, ∀ d ∈ H₀ node, d.uuid ≠ uuid)
    (unfolds : Unfolds (fun _ => .change sender uuid nodes change) H₀ trace H) :
    Interrupted (nodes.map (·.1)) uuid H₀ H where
  fresh := fresh
  each := unfolds.each_of_change fresh fun _ => rfl
  together := by
    rintro ⟨a, d, memA, uuidA, committed⟩ node called
    rcases unfolds.closed memA (by rw [committed]; decide) with start |
      ⟨⟨⟩, m, now, answer, context, sent, closing⟩
    · exact absurd uuidA (fresh a d start)
    have sent := mem_logOf.2 sent
    have logs := unfolds.logs (List.ne_nil_of_mem sent)
    have commit : m = .commit ⟨context, uuid⟩ := by
      rw [committed] at closing
      rcases Job.change_sent logs sent with ⟨p, rfl, -⟩ | ⟨_, rfl⟩ | ⟨_, rfl⟩
      · cases closing
      · cases closing
        rfl
      · cases closing
    subst commit
    obtain ⟨prepared, never⟩ := Job.change_committed logs sent
    obtain ⟨p, delivery, accepted, same⟩ := prepared node called
    have accepted := mem_logOf.1 accepted
    obtain ⟨_, rfl⟩ := unfolds.carried_of_answer accepted
    obtain ⟨e, memE, uuidE⟩ := unfolds.carried_uuid accepted
    rcases unfolds.each_of_change fresh (fun _ => rfl) node with start | ⟨newest, shape, uuidN⟩
    · rw [start] at memE
      exact absurd (uuidE.trans same) (fresh node e memE)
    · refine ⟨newest, shape, uuidN, fun rolledBack => ?_⟩
      have memN : newest ∈ H node := by
        rw [shape]
        exact List.mem_cons_self
      rcases unfolds.closed memN (by rw [rolledBack]; decide) with start |
        ⟨⟨⟩, m, now, answer, context, sent, closing⟩
      · exact fresh node newest start uuidN
      have sent := mem_logOf.2 sent
      rw [rolledBack] at closing
      rcases Job.change_sent logs sent with ⟨p, rfl, -⟩ | ⟨_, rfl⟩ | ⟨_, rfl⟩
      · cases closing
      · cases closing
      · exact never node _ _ _ sent

end Unfolds

/-! ## Verdicts on what is left -/

/-- All that is left of the change can be brought to the target. -/
structure Pending (nodes : List Address) (uuid : Uuid) (H₀ H : Histories)
    (target : ChangeState) : Prop where
  terminal : target = .committed ∨ target = .rolledBack
  fresh : ∀ node, ∀ d ∈ H₀ node, d.uuid ≠ uuid
  each : ∀ node ∈ nodes, (H node = H₀ node ∧ target = .rolledBack) ∨
    ∃ d, H node = d :: H₀ node ∧ d.uuid = uuid ∧ (d.state = .prepared ∨ d.state = target)
  seen : target = .committed → ∃ node ∈ nodes, ∃ d ∈ H node, d.uuid = uuid ∧ d.state = .committed

/-- A change that some node has committed can be committed, and any other one rolled
back. -/
theorem Interrupted.pending {nodes : List Address} {uuid : Uuid} {H₀ H : Histories}
    (interrupted : Interrupted nodes uuid H₀ H) :
    ((∃ node ∈ nodes, ∃ d ∈ H node, d.uuid = uuid ∧ d.state = .committed) →
      Pending nodes uuid H₀ H .committed) ∧
    (¬ (∃ node ∈ nodes, ∃ d ∈ H node, d.uuid = uuid ∧ d.state = .committed) →
      Pending nodes uuid H₀ H .rolledBack) := by
  constructor
  · intro seen
    refine ⟨.inl rfl, interrupted.fresh, fun node mem => .inr ?_, fun _ => seen⟩
    obtain ⟨a, -, committed⟩ := seen
    obtain ⟨d, shape, same, state⟩ := interrupted.together ⟨a, committed⟩ node mem
    refine ⟨d, shape, same, ?_⟩
    cases known : d.state with
    | prepared => exact .inl rfl
    | committed => exact .inr rfl
    | rolledBack => exact absurd known state
  · intro unseen
    refine ⟨.inr rfl, interrupted.fresh, fun node mem => ?_, nofun⟩
    rcases interrupted.each node with start | ⟨d, shape, same⟩
    · exact .inl ⟨start, rfl⟩
    · refine .inr ⟨d, shape, same, ?_⟩
      cases known : d.state with
      | prepared => exact .inl rfl
      | committed =>
        refine absurd ⟨node, mem, d, ?_, same, known⟩ unseen
        rw [shape]
        exact List.mem_cons_self
      | rolledBack => exact .inr rfl

namespace Pending

variable {nodes : List Address} {uuid : Uuid} {H₀ H : Histories} {target : ChangeState}
  {snapshots : Snapshots} {version : Nat} {head : Option Uuid}

theorem stateOf?_eq (pending : Pending nodes uuid H₀ H target) (shown : snapshots.Show nodes H)
    {entry : Address × Snapshot} (mem : entry ∈ snapshots) :
    (entry.2.stateOf? uuid = none ∧ H entry.1 = H₀ entry.1 ∧ target = .rolledBack) ∨
      ∃ d, H entry.1 = d :: H₀ entry.1 ∧ d.uuid = uuid ∧ entry.2.stateOf? uuid = some d.state ∧
        (d.state = .prepared ∨ d.state = target) := by
  have stateOf := (shown.shows entry mem).stateOf? uuid
  rcases pending.each entry.1 (shown.node_mem mem) with ⟨start, back⟩ | ⟨d, shape, same, state⟩
  · have absent : (H₀ entry.1).find? (·.uuid == uuid) = none := by
      rw [List.find?_eq_none]
      intro d mem
      simpa using pending.fresh entry.1 d mem
    rw [start, absent] at stateOf
    exact .inl ⟨stateOf, start, back⟩
  · have first : (d :: H₀ entry.1).find? (·.uuid == uuid) = some d :=
      List.find?_cons_of_pos (by simpa using same)
    rw [shape, first] at stateOf
    exact .inr ⟨d, shape, same, stateOf, state⟩

/-- Nodes that hold nothing open are level again. -/
theorem level (pending : Pending nodes uuid H₀ H target)
    (before : H₀.Level nodes version head)
    (settled : ∀ node ∈ nodes, (H node).mode ≠ .prepared) :
    H.Level nodes (if target = .committed then version + 1 else version)
      (if target = .committed then some uuid else head) := by
  have closed : ∀ node ∈ nodes, ∀ d, H node = d :: H₀ node →
      (d.state = .prepared ∨ d.state = target) → d.state = target := by
    intro node mem d shape state
    refine state.resolve_left fun prepared => settled node mem ?_
    rw [shape]
    exact History.mode_eq_prepared_iff.2 ⟨d, _, rfl, prepared⟩
  rcases pending.terminal with rfl | rfl
  · refine before.of_committed fun node mem => ?_
    rcases pending.each node mem with ⟨-, back⟩ | ⟨d, shape, same, state⟩
    · cases back
    · exact ⟨d, shape, same, closed node mem d shape state⟩
  · refine before.of_rolledBack fun node mem => ?_
    rcases pending.each node mem with ⟨start, -⟩ | ⟨d, shape, -, state⟩
    · exact .inl start
    · exact .inr ⟨d, shape, closed node mem d shape state⟩

theorem not_recordedAs (pending : Pending nodes uuid H₀ H target)
    (shown : snapshots.Show nodes H) {other : ChangeState} (closed : other ≠ .prepared)
    (different : other ≠ target) : Analysis.recordedAs snapshots uuid other = false := by
  rw [Analysis.recordedAs_eq_false]
  intro entry mem recorded
  rcases pending.stateOf?_eq shown mem with ⟨none, -⟩ | ⟨d, -, -, stateOf, state⟩
  · rw [none] at recorded
    cases recorded
  · rw [stateOf] at recorded
    cases recorded
    exact state.elim closed different

theorem recordedAs_committed (pending : Pending nodes uuid H₀ H .committed)
    (shown : snapshots.Show nodes H) : Analysis.recordedAs snapshots uuid .committed = true := by
  rw [Analysis.recordedAs_eq_true]
  obtain ⟨node, called, d, mem, same, committed⟩ := pending.seen rfl
  obtain ⟨entry, found, rfl⟩ := shown.entry_mem called
  rcases pending.stateOf?_eq shown found with ⟨-, -, back⟩ | ⟨e, shape, -, stateOf, -⟩
  · cases back
  · refine ⟨entry, found, ?_⟩
    rw [shape] at mem
    rcases List.mem_cons.1 mem with rfl | mem
    · rw [stateOf, committed]
    · exact absurd same (pending.fresh entry.1 d mem)

theorem analyze_eq (pending : Pending nodes uuid H₀ H target)
    (before : H₀.Level nodes version head) (shown : snapshots.Show nodes H) {node : Address}
    (called : node ∈ nodes) (prepared : (H node).mode = .prepared) :
    analyze snapshots = Analysis.inFlight snapshots uuid := by
  obtain ⟨entry, mem, rfl⟩ := shown.entry_mem called
  refine analyze_of_prepared mem ((shown.shows entry mem).mode.trans prepared) fun e mem mode => ?_
  rw [(shown.shows e mem).mode] at mode
  rcases pending.each e.1 (shown.node_mem mem) with ⟨start, -⟩ | ⟨d, shape, same, -⟩
  · rw [start, (before e.1 (shown.node_mem mem)).1] at mode
    cases mode
  · rw [(shown.shows e mem).latest, shape, History.latest_cons, same]

theorem heads_eq (pending : Pending nodes uuid H₀ H .rolledBack)
    (before : H₀.Level nodes version head) (shown : snapshots.Show nodes H)
    (nonempty : snapshots ≠ []) : Analysis.heads snapshots = [head] := by
  refine Analysis.eraseDups_of_all_eq (by simpa using nonempty) fun other found => ?_
  obtain ⟨entry, mem, rfl⟩ := List.mem_map.1 found
  have ⟨_, _, sameHead⟩ := before entry.1 (shown.node_mem mem)
  rw [(shown.shows entry mem).committedHead, ← sameHead]
  rcases pending.each entry.1 (shown.node_mem mem) with ⟨start, -⟩ | ⟨d, shape, -, state⟩
  · rw [start]
  · have open_ : d.state ≠ .committed := by
      rcases state with state | state <;> rw [state] <;> decide
    rw [shape, History.head, History.committed_cons, if_neg open_]
    rfl

theorem analyze_committed (pending : Pending nodes uuid H₀ H .committed)
    (before : H₀.Level nodes version head) (shown : snapshots.Show nodes H) {node : Address}
    (called : node ∈ nodes) (prepared : (H node).mode = .prepared) :
    analyze snapshots = .partiallyCommitted uuid := by
  rw [pending.analyze_eq before shown called prepared, Analysis.inFlight,
    pending.recordedAs_committed shown, pending.not_recordedAs shown (by decide) (by decide)]

/-- A change that no node has closed is only prepared. -/
theorem analyze_prepared (pending : Pending nodes uuid H₀ H .rolledBack)
    (before : H₀.Level nodes version head) (shown : snapshots.Show nodes H) {node : Address}
    (called : node ∈ nodes) (prepared : (H node).mode = .prepared)
    (unclosed : Analysis.recordedAs snapshots uuid .rolledBack = false) :
    analyze snapshots = .partiallyPrepared uuid := by
  obtain ⟨entry, mem, -⟩ := shown.entry_mem called
  rw [pending.analyze_eq before shown called prepared, Analysis.inFlight, unclosed,
    pending.not_recordedAs shown (show ChangeState.committed ≠ .prepared by decide) (by decide),
    pending.heads_eq before shown (List.ne_nil_of_mem mem)]
  rfl

/-- As long as a node holds the change open, the verdict names the change and the
way to bring it to an end, and a recovery that goes this way is not refused. -/
theorem verdict (pending : Pending nodes uuid H₀ H target) (before : H₀.Level nodes version head)
    (shown : snapshots.Show nodes H) {node : Address} (called : node ∈ nodes)
    (prepared : (H node).mode = .prepared) :
    (analyze snapshots).suggestedRepair = some target ∧
      ∀ unreachable, (Report.mk snapshots unreachable).recoveryPlan target =
        .ok (.resolve uuid) := by
  have verdict := pending.analyze_eq before shown called prepared
  have state : ∀ unreachable, (Report.mk snapshots unreachable).state =
      Analysis.inFlight snapshots uuid := fun _ => verdict
  rcases pending.terminal with rfl | rfl
  · have named := pending.analyze_committed before shown called prepared
    rw [verdict] at named
    refine ⟨by rw [verdict, named]; rfl, fun unreachable => ?_⟩
    simp [Report.recoveryPlan, state, named]
  · have uncommitted := pending.not_recordedAs shown
      (show ChangeState.committed ≠ .prepared by decide) (by decide)
    cases rolledBack : Analysis.recordedAs snapshots uuid .rolledBack with
    | true =>
      have named : Analysis.inFlight snapshots uuid = .partiallyRolledBack uuid := by
        rw [Analysis.inFlight, uncommitted, rolledBack]
      refine ⟨by rw [verdict, named]; rfl, fun unreachable => ?_⟩
      simp [Report.recoveryPlan, state, named]
    | false =>
      have named := pending.analyze_prepared before shown called prepared rolledBack
      rw [verdict] at named
      refine ⟨by rw [verdict, named]; rfl, fun unreachable => ?_⟩
      simp [Report.recoveryPlan, state, named]

/-- A change that all nodes hold open can be brought to either end. -/
theorem plan_of_prepared (pending : Pending nodes uuid H₀ H .rolledBack)
    (before : H₀.Level nodes version head) (shown : snapshots.Show nodes H) (nonempty : nodes ≠ [])
    (all : ∀ node ∈ nodes, (H node).mode = .prepared) (target : ChangeState)
    (unreachable : List (Address × CallError)) :
    (Report.mk snapshots unreachable).recoveryPlan target = .ok (.resolve uuid) := by
  have held : ∀ entry ∈ snapshots, entry.2.latestUuid = some uuid ∧
      entry.2.stateOf? uuid = some .prepared := by
    intro entry mem
    obtain ⟨d, below, shape, inFlight⟩ :=
      History.mode_eq_prepared_iff.1 (all entry.1 (shown.node_mem mem))
    rcases pending.stateOf?_eq shown mem with ⟨-, start, -⟩ | ⟨e, shape', same, recorded, -⟩
    · have idle := (before entry.1 (shown.node_mem mem)).1
      rw [← start, all entry.1 (shown.node_mem mem)] at idle
      cases idle
    · rw [shape'] at shape
      cases shape
      refine ⟨?_, by rw [recorded, inFlight]⟩
      rw [(shown.shows entry mem).latest, shape', History.latest_cons, same]
  have unclosed : Analysis.recordedAs snapshots uuid .rolledBack = false := by
    rw [Analysis.recordedAs_eq_false]
    intro entry mem recorded
    rw [(held entry mem).2] at recorded
    cases recorded
  obtain ⟨node, called⟩ := List.exists_mem_of_ne_nil nodes nonempty
  have verdict : (Report.mk snapshots unreachable).state = .partiallyPrepared uuid :=
    pending.analyze_prepared before shown called (all node called) unclosed
  have present : (Report.mk snapshots unreachable).withoutLatest uuid = [] := by
    rw [Report.withoutLatest, List.filter_eq_nil_iff]
    intro entry mem
    simp [(held entry mem).1]
  simp [Report.recoveryPlan, verdict, present]

end Pending
end Reconfig
