/-
What the verdicts of the analysis say about the snapshots.
-/
import Mathlib.Data.List.Induction
import Reconfig.Coordination.RecoveryPass
import Reconfig.Proofs.Outcome

namespace Reconfig

namespace Analysis

variable {snapshots : Snapshots} {uuid : Uuid}

theorem eraseDups_of_all_eq {α : Type} [BEq α] [LawfulBEq α] {a : α} {l : List α}
    (nonempty : l ≠ []) (all : ∀ b ∈ l, b = a) : l.eraseDups = [a] := by
  cases l with
  | nil => exact absurd rfl nonempty
  | cons b l =>
    have head := all b List.mem_cons_self
    have none : l.filter (fun c => !c == b) = [] := by
      rw [List.filter_eq_nil_iff]
      intro c mem
      simp [all c (List.mem_cons_of_mem _ mem), head]
    rw [List.eraseDups_cons, none, head]
    rfl

theorem recordedAs_eq_true {state : ChangeState} : recordedAs snapshots uuid state = true ↔
    ∃ entry ∈ snapshots, entry.2.stateOf? uuid = some state := by
  simp [recordedAs]

theorem recordedAs_eq_false {state : ChangeState} : recordedAs snapshots uuid state = false ↔
    ∀ entry ∈ snapshots, entry.2.stateOf? uuid ≠ some state := by
  simp [recordedAs]

/-! ## Without a change in flight -/

theorem newest?_eq_some (nonempty : snapshots ≠ []) :
    ∃ entry ∈ snapshots, newest? snapshots = some entry.2 := by
  induction snapshots using List.reverseRecOn with
  | nil => exact absurd rfl nonempty
  | append_singleton earlier last ih =>
    have mem : last ∈ earlier ++ [last] := by simp
    rw [newest?, List.foldl_append]
    by_cases first : earlier = []
    · exact ⟨last, mem, by rw [first]; rfl⟩
    · obtain ⟨entry, found, newest⟩ := ih first
      rw [newest?] at newest
      rw [newest, List.foldl_cons, List.foldl_nil]
      dsimp only
      split
      · exact ⟨last, mem, rfl⟩
      · exact ⟨entry, List.mem_append_left _ found, rfl⟩

theorem level_of_idle {version : Nat} {head : Option Uuid}
    (verdict : idle snapshots = .consistent version head) :
    ∀ entry ∈ snapshots, entry.2.currentVersion = version ∧ entry.2.committedHead = head := by
  unfold idle at verdict
  split at verdict
  · cases verdict
  · rename_i newest _
    split at verdict
    · cases verdict
    · rename_i noneDivergent
      split at verdict
      · rename_i noneBehind
        cases verdict
        intro entry mem
        have notDivergent := List.find?_eq_none.1 noneDivergent entry mem
        have notBehind := List.filter_eq_nil_iff.1 noneBehind entry mem
        simp only [beq_iff_eq] at notDivergent notBehind
        unfold standing at notDivergent notBehind
        split at notDivergent
        · rename_i level
          exact ⟨level.2, level.1⟩
        · simp_all
      · cases verdict

theorem idle_of_level {version : Nat} {head : Option Uuid} (nonempty : snapshots ≠ [])
    (level : ∀ entry ∈ snapshots, entry.2.currentVersion = version ∧
      entry.2.committedHead = head) : idle snapshots = .consistent version head := by
  obtain ⟨entry, mem, chosen⟩ := newest?_eq_some nonempty
  have ⟨newestVersion, newestHead⟩ := level entry mem
  have standing_level : ∀ other ∈ snapshots, standing entry.2 other.2 = .level :=
    fun other mem => by
      have ⟨sameVersion, sameHead⟩ := level other mem
      rw [standing, if_pos ⟨sameHead.trans newestHead.symm, sameVersion.trans newestVersion.symm⟩]
  have noneDivergent : (snapshots.find? fun other => standing entry.2 other.2 == .divergent) =
      none := by
    rw [List.find?_eq_none]
    intro other mem
    rw [standing_level other mem]
    decide
  have noneBehind : (snapshots.filter fun other => standing entry.2 other.2 == .behind) = [] := by
    rw [List.filter_eq_nil_iff]
    intro other mem
    rw [standing_level other mem]
    decide
  simp only [idle, chosen, noneDivergent, noneBehind, newestVersion, newestHead]

theorem idle_unnamed : (idle snapshots).changeUnderRepair = none := by
  unfold idle
  split
  · rfl
  · split
    · rfl
    · split <;> rfl

/-! ## With a change in flight -/

theorem inFlight_named {other : Uuid}
    (named : (inFlight snapshots other).changeUnderRepair = some uuid) : other = uuid := by
  unfold inFlight at named
  split at named
  · cases named
  · exact Option.some.inj named
  · exact Option.some.inj named
  · split at named
    · cases named
    · exact Option.some.inj named

theorem preparedChanges_eq_nil (accepting : ∀ entry ∈ snapshots, entry.2.mode = .accepting) :
    preparedChanges snapshots = [] := by
  have none : snapshots.filter (·.2.mode == .prepared) = [] := by
    rw [List.filter_eq_nil_iff]
    intro entry mem
    rw [accepting entry mem]
    decide
  rw [preparedChanges, none]
  rfl

theorem preparedChanges_eq_singleton {entry : Address × Snapshot} (mem : entry ∈ snapshots)
    (prepared : entry.2.mode = .prepared)
    (one : ∀ e ∈ snapshots, e.2.mode = .prepared → e.2.latestUuid = some uuid) :
    preparedChanges snapshots = [uuid] := by
  refine eraseDups_of_all_eq ?_ fun other found => ?_
  · have : uuid ∈ (snapshots.filter (·.2.mode == .prepared)).filterMap (·.2.latestUuid) :=
      List.mem_filterMap.2 ⟨entry, List.mem_filter.2 ⟨mem, by simp [prepared]⟩,
        one entry mem prepared⟩
    exact List.ne_nil_of_mem this
  · obtain ⟨e, mem, latest⟩ := List.mem_filterMap.1 found
    have ⟨mem, mode⟩ := List.mem_filter.1 mem
    have := one e mem (by simpa using mode)
    exact Option.some.inj (latest.symm.trans this)

end Analysis

variable {snapshots : Snapshots} {uuid : Uuid}

theorem analyze_of_level {version : Nat} {head : Option Uuid} (nonempty : snapshots ≠ [])
    (level : ∀ entry ∈ snapshots, entry.2.mode = .accepting ∧ entry.2.currentVersion = version ∧
      entry.2.committedHead = head) : analyze snapshots = .consistent version head := by
  rw [analyze, if_neg (by simpa using nonempty),
    Analysis.preparedChanges_eq_nil fun entry mem => (level entry mem).1]
  exact Analysis.idle_of_level nonempty fun entry mem => (level entry mem).2

theorem analyze_of_prepared {entry : Address × Snapshot} (mem : entry ∈ snapshots)
    (prepared : entry.2.mode = .prepared)
    (one : ∀ e ∈ snapshots, e.2.mode = .prepared → e.2.latestUuid = some uuid) :
    analyze snapshots = Analysis.inFlight snapshots uuid := by
  have nonempty : snapshots ≠ [] := List.ne_nil_of_mem mem
  rw [analyze, if_neg (by simpa using nonempty),
    Analysis.preparedChanges_eq_singleton mem prepared one]

theorem preparedChanges_of_analyze {version : Nat} {head : Option Uuid}
    (verdict : analyze snapshots = .consistent version head) :
    Analysis.preparedChanges snapshots = [] ∧
      Analysis.idle snapshots = .consistent version head := by
  unfold analyze at verdict
  split at verdict
  · cases verdict
  · split at verdict
    · rename_i none
      exact ⟨none, verdict⟩
    · unfold Analysis.inFlight at verdict
      split at verdict <;> try cases verdict
      split at verdict <;> cases verdict
    · cases verdict

theorem level_of_analyze {version : Nat} {head : Option Uuid}
    (verdict : analyze snapshots = .consistent version head) :
    ∀ entry ∈ snapshots, entry.2.currentVersion = version ∧ entry.2.committedHead = head :=
  Analysis.level_of_idle (preparedChanges_of_analyze verdict).2

/-- No node of a consistent cluster holds a change that it names. -/
theorem latest_of_analyze {version : Nat} {head : Option Uuid}
    (verdict : analyze snapshots = .consistent version head) {entry : Address × Snapshot}
    (mem : entry ∈ snapshots) (prepared : entry.2.mode = .prepared) :
    entry.2.latestUuid = none := by
  have none := (preparedChanges_of_analyze verdict).1
  by_contra named
  obtain ⟨uuid, latest⟩ := Option.ne_none_iff_exists'.1 named
  have : uuid ∈ Analysis.preparedChanges snapshots :=
    List.mem_eraseDups.2 (List.mem_filterMap.2
      ⟨entry, List.mem_filter.2 ⟨mem, by simp [prepared]⟩, latest⟩)
  rw [none] at this
  cases this

/-- A verdict that names a change under repair is made on what the nodes record of
that change. -/
theorem analyze_of_named (named : (analyze snapshots).changeUnderRepair = some uuid) :
    analyze snapshots = Analysis.inFlight snapshots uuid := by
  unfold analyze at named ⊢
  split at named
  · cases named
  · split at named
    · rw [Analysis.idle_unnamed] at named
      cases named
    · rename_i other _
      have same : other = uuid := Analysis.inFlight_named named
      simp_all
    · cases named

/-- Such a verdict is made where the nodes that are in the middle of a change hold this one. -/
theorem preparedChanges_of_named (named : (analyze snapshots).changeUnderRepair = some uuid) :
    Analysis.preparedChanges snapshots = [uuid] := by
  unfold analyze at named
  split at named
  · cases named
  · split at named
    · rw [Analysis.idle_unnamed] at named
      cases named
    · rename_i other one
      rw [one, Analysis.inFlight_named named]
    · cases named

/-- The nodes that are in the middle of a change which they name hold the one that the verdict
names. -/
theorem latest_of_named (named : (analyze snapshots).changeUnderRepair = some uuid)
    {entry : Address × Snapshot} (mem : entry ∈ snapshots) (prepared : entry.2.mode = .prepared)
    {latest : Uuid} (holds : entry.2.latestUuid = some latest) : latest = uuid := by
  have found : latest ∈ Analysis.preparedChanges snapshots :=
    List.mem_eraseDups.2 (List.mem_filterMap.2
      ⟨entry, List.mem_filter.2 ⟨mem, by simp [prepared]⟩, holds⟩)
  rw [preparedChanges_of_named named] at found
  exact List.mem_singleton.1 found

theorem recorded_of_partiallyCommitted
    (verdict : analyze snapshots = .partiallyCommitted uuid) :
    ∃ entry ∈ snapshots, entry.2.stateOf? uuid = some .committed := by
  have named : (analyze snapshots).changeUnderRepair = some uuid := by rw [verdict]; rfl
  rw [analyze_of_named named, Analysis.inFlight] at verdict
  split at verdict
  · cases verdict
  · rename_i seen _
    exact Analysis.recordedAs_eq_true.1 seen
  · cases verdict
  · split at verdict <;> cases verdict

/-- A change that is said to be merely prepared is not closed on any node. -/
theorem open_of_partiallyPrepared
    (verdict : analyze snapshots = .partiallyPrepared uuid) {entry : Address × Snapshot}
    (mem : entry ∈ snapshots) {state : ChangeState}
    (recorded : entry.2.stateOf? uuid = some state) : state = .prepared := by
  have named : (analyze snapshots).changeUnderRepair = some uuid := by rw [verdict]; rfl
  rw [analyze_of_named named, Analysis.inFlight] at verdict
  split at verdict
  · cases verdict
  · cases verdict
  · cases verdict
  · rename_i uncommitted unrolled
    cases state with
    | prepared => rfl
    | committed => exact absurd recorded (Analysis.recordedAs_eq_false.1 uncommitted entry mem)
    | rolledBack => exact absurd recorded (Analysis.recordedAs_eq_false.1 unrolled entry mem)

/-! ## Reports -/

namespace Report

variable {r : Report} {target : ChangeState}

theorem mem_responses {answers : List (Address × Except CallError Snapshot)} {node : Address}
    {s : Snapshot} : (node, s) ∈ (ofAnswers answers).responses ↔ (node, .ok s) ∈ answers := by
  rw [ofAnswers, List.mem_filterMap]
  constructor
  · rintro ⟨⟨other, answer⟩, mem, shown⟩
    cases answer with
    | error e => cases shown
    | ok s' =>
      cases shown
      exact mem
  · exact fun mem => ⟨_, mem, rfl⟩

theorem ofAnswers_ok (snapshots : Snapshots) :
    ofAnswers (snapshots.map fun entry => (entry.1, .ok entry.2)) = ⟨snapshots, []⟩ := by
  rw [ofAnswers, List.filterMap_map, List.filterMap_map]
  congr 1
  · exact List.filterMap_some
  · exact List.filterMap_eq_nil_iff.2 fun _ _ => rfl

theorem readyVersion_eq_ok {version : Nat} (ready : r.readyVersion = .ok version) :
    r.unreachable = [] ∧ (∀ entry ∈ r.responses, entry.2.mode = .accepting) ∧
      ∃ current head, version = current + 1 ∧ r.state = .consistent current head := by
  unfold readyVersion at ready
  dsimp only at ready
  split at ready
  · cases ready
  · rename_i reachable
    split at ready
    · cases ready
    · rename_i noneBusy
      split at ready
      · rename_i current head verdict
        cases ready
        refine ⟨by simpa [allReachable] using reachable, fun entry mem => ?_, current, head, rfl,
          verdict⟩
        have : ¬ entry.2.mode ≠ .accepting := fun busy => noneBusy (by
          rw [Bool.not_eq_true', List.isEmpty_eq_false_iff]
          exact List.ne_nil_of_mem (List.mem_filter.2 ⟨mem, by simpa using busy⟩))
        exact not_ne_iff.1 this
      · cases ready
      · cases ready

theorem of_readyVersion {version : Nat} (ready : r.readyVersion = .ok version) :
    r.unreachable = [] ∧ ∃ current head, version = current + 1 ∧ ∀ entry ∈ r.responses,
      entry.2.mode = .accepting ∧ entry.2.currentVersion = current ∧
        entry.2.committedHead = head := by
  obtain ⟨reachable, idle, current, head, next, verdict⟩ := readyVersion_eq_ok ready
  exact ⟨reachable, current, head, next, fun entry mem =>
    ⟨idle entry mem, level_of_analyze verdict entry mem⟩⟩

/-- Nodes that are idle and level are ready for the next change. -/
theorem readyVersion_of_level {version : Nat} {head : Option Uuid} (nonempty : snapshots ≠ [])
    (level : ∀ entry ∈ snapshots, entry.2.mode = .accepting ∧ entry.2.currentVersion = version ∧
      entry.2.committedHead = head) :
    (Report.mk snapshots []).readyVersion = .ok (version + 1) := by
  have idle : snapshots.filter (·.2.mode != .accepting) = [] := by
    rw [List.filter_eq_nil_iff]
    intro entry mem
    rw [(level entry mem).1]
    decide
  have verdict : (Report.mk snapshots []).state = .consistent version head :=
    analyze_of_level nonempty level
  simp [readyVersion, allReachable, idle, verdict]

theorem mem_of_response {node : Address} {s : Snapshot} (response : r.response? node = some s) :
    (node, s) ∈ r.responses := by
  obtain ⟨before, after, split, -⟩ := List.lookup_eq_some_iff.1 response
  rw [split]
  simp

theorem of_counts {order : List Address} {counts : List (Address × Nat)}
    (counted : r.counts order = .ok counts) : counts.map (·.1) = order ∧
      ∀ entry ∈ counts, ∃ s, (entry.1, s) ∈ r.responses ∧ entry.2 = s.count := by
  induction order generalizing counts with
  | nil =>
    cases counted
    simp
  | cons node rest ih =>
    rw [Report.counts, List.mapM_cons] at counted
    obtain ⟨first, found, counted⟩ := Outcome.bind_eq_ok.1 counted
    obtain ⟨others, more, counted⟩ := Outcome.bind_eq_ok.1 counted
    cases counted
    obtain ⟨nodes, shown⟩ := ih more
    split at found
    · rename_i s response
      cases found
      refine ⟨by simp [nodes], fun entry mem => ?_⟩
      rcases List.mem_cons.1 mem with rfl | mem
      · exact ⟨s, mem_of_response response, rfl⟩
      · exact shown entry mem
    · cases found

theorem named_of_recoveryPlan (plan : r.recoveryPlan target = .ok (.resolve uuid)) :
    r.state.changeUnderRepair = some uuid := by
  unfold recoveryPlan at plan
  dsimp only at plan
  split at plan
  · cases plan
  · cases plan
  · cases plan
  · cases plan
  · split at plan <;> cases plan
    simp [*, ClusterState.changeUnderRepair]
  · split at plan <;> cases plan
    simp [*, ClusterState.changeUnderRepair]
  · split at plan <;> cases plan
    simp [*, ClusterState.changeUnderRepair]

theorem consistent_of_recoveryPlan (plan : r.recoveryPlan target = .ok .nothing) :
    ∃ version head, r.state = .consistent version head := by
  unfold recoveryPlan at plan
  dsimp only at plan
  split at plan
  · exact ⟨_, _, by assumption⟩
  · cases plan
  · cases plan
  · cases plan
  · split at plan <;> cases plan
  · split at plan <;> cases plan
  · split at plan <;> cases plan

/-- A recovery resolves a change only if no node has closed it the other way, and
commits one that no node has committed only if it is the latest on all of them. -/
theorem of_recoveryPlan (plan : r.recoveryPlan target = .ok (.resolve uuid)) :
    (target = .rolledBack → Analysis.recordedAs r.responses uuid .committed = false) ∧
      (target = .committed → Analysis.recordedAs r.responses uuid .rolledBack = false ∧
        (Analysis.recordedAs r.responses uuid .committed = false →
          ∀ entry ∈ r.responses, entry.2.latestUuid = some uuid)) := by
  have verdict : r.state = Analysis.inFlight r.responses uuid :=
    analyze_of_named (named_of_recoveryPlan plan)
  rw [recoveryPlan, verdict, Analysis.inFlight] at plan
  cases committed : Analysis.recordedAs r.responses uuid .committed with
  | true =>
    cases rolledBack : Analysis.recordedAs r.responses uuid .rolledBack with
    | true => simp [committed, rolledBack] at plan
    | false =>
      have commit : target = .committed := by
        by_contra other
        simp [committed, rolledBack, other] at plan
      simp [commit]
  | false =>
    cases rolledBack : Analysis.recordedAs r.responses uuid .rolledBack with
    | true =>
      have rollback : target = .rolledBack := by
        by_contra other
        simp [committed, rolledBack, other] at plan
      simp [rollback]
    | false =>
      refine ⟨fun _ => rfl, fun commit => ⟨rfl, fun _ entry mem => ?_⟩⟩
      have present : r.withoutLatest uuid = [] := by
        by_contra missing
        by_cases several : 1 < (Analysis.heads r.responses).length
        · simp [committed, rolledBack, several] at plan
        · simp [committed, rolledBack, several, commit, missing] at plan
      have := List.filter_eq_nil_iff.1 present entry mem
      simpa using this

end Report
end Reconfig
