/-
What becomes of a cluster that an operator goes on changing.

Each change goes over the peers of some node, and leaves the nodes that took part level at the
next version. But it also says who the peers are from then on. Where they all took part the next
change can start. A node that the change attached was not among them, so it stays behind, and the
cluster it was attached to is no longer consistent.
-/
import Reconfig.Proofs.Coordination.Forks
import Reconfig.Proofs.Coordination.Peers
import Reconfig.Proofs.Coordination.Recoveries
import Reconfig.Proofs.Coordination.Unhindered

namespace Reconfig

/-! ## Nodes that are level, and nodes behind them -/

namespace Analysis

variable {snapshots : Snapshots} {newest : Snapshot}

theorem newest?_concat (earlier : Snapshots) (last : Address × Snapshot) :
    newest? (earlier ++ [last]) =
      match newest? earlier with
      | none => some last.2
      | some s => if s.currentVersion ≤ last.2.currentVersion then some last.2 else some s := by
  rw [newest?, List.foldl_append]
  rfl

theorem currentVersion_le_newest (found : newest? snapshots = some newest) :
    ∀ entry ∈ snapshots, entry.2.currentVersion ≤ newest.currentVersion := by
  induction snapshots using List.reverseRecOn generalizing newest with
  | nil => cases found
  | append_singleton earlier last ih =>
    rw [newest?_concat] at found
    intro entry mem
    rcases List.mem_append.1 mem with before | same
    · obtain ⟨first, -, best⟩ := newest?_eq_some (List.ne_nil_of_mem before)
      have older := ih best entry before
      rw [best] at found
      dsimp only at found
      split at found
      · rename_i later
        cases found
        exact Nat.le_trans older later
      · cases found
        exact older
    · obtain rfl := List.mem_singleton.1 same
      split at found
      · cases found
        exact Nat.le_refl _
      · split at found
        · cases found
          exact Nat.le_refl _
        · rename_i earlier
          cases found
          exact Nat.le_of_not_le earlier

end Analysis

variable {snapshots : Snapshots}

/-- Nodes that have committed nothing lag behind nodes that are level at some version. -/
theorem analyze_of_behind (ahead : Address → Bool) {version : Nat} {head : Option Uuid}
    (level : ∀ entry ∈ snapshots, ahead entry.1 = true → entry.2.mode = .accepting ∧
      entry.2.currentVersion = version + 1 ∧ entry.2.committedHead = head)
    (blank : ∀ entry ∈ snapshots, ahead entry.1 = false → entry.2.mode = .accepting ∧
      entry.2.currentVersion = 0 ∧ entry.2.committedHead = none)
    (first : ∃ entry ∈ snapshots, ahead entry.1 = true)
    (last : ∃ entry ∈ snapshots, ahead entry.1 = false) :
    analyze snapshots = .lagging ((snapshots.map (·.1)).filter (!ahead ·)) := by
  obtain ⟨leader, leads, before⟩ := first
  obtain ⟨entry, mem, chosen⟩ := Analysis.newest?_eq_some (List.ne_nil_of_mem leads)
  have newest : entry.2.currentVersion = version + 1 ∧ entry.2.committedHead = head := by
    have later := Analysis.currentVersion_le_newest chosen leader leads
    rw [(level leader leads before).2.1] at later
    cases side : ahead entry.1 with
    | true => exact (level entry mem side).2
    | false =>
      rw [(blank entry mem side).2.1] at later
      omega
  have standing : ∀ other ∈ snapshots, Analysis.standing entry.2 other.2 =
      if ahead other.1 then .level else .behind := by
    intro other mem
    cases side : ahead other.1 with
    | true =>
      obtain ⟨-, sameVersion, sameHead⟩ := level other mem side
      rw [Analysis.standing, if_pos ⟨sameHead.trans newest.2.symm,
        sameVersion.trans newest.1.symm⟩]
      rfl
    | false =>
      obtain ⟨-, none, unheaded⟩ := blank other mem side
      rw [Analysis.standing, if_neg (by simp [none, newest.1]), if_pos (by simp [*])]
      rfl
  have noneDivergent :
      (snapshots.find? fun other => Analysis.standing entry.2 other.2 == .divergent) = none := by
    rw [List.find?_eq_none]
    intro other mem
    rw [standing other mem]
    split <;> decide
  have behind : (snapshots.filter fun other => Analysis.standing entry.2 other.2 == .behind) =
      snapshots.filter fun other => !ahead other.1 := by
    refine List.filter_congr fun other mem => ?_
    rw [standing other mem]
    cases ahead other.1 <;> rfl
  have accepting : ∀ other ∈ snapshots, other.2.mode = .accepting := by
    intro other mem
    cases side : ahead other.1 with
    | true => exact (level other mem side).1
    | false => exact (blank other mem side).1
  obtain ⟨straggler, lags, after⟩ := last
  have stragglers : (snapshots.filter fun other => !ahead other.1) ≠ [] :=
    List.ne_nil_of_mem (List.mem_filter.2 ⟨lags, by simp [after]⟩)
  rw [analyze, if_neg (by simpa using List.ne_nil_of_mem leads),
    Analysis.preparedChanges_eq_nil accepting]
  simp only [Analysis.idle, chosen, noneDivergent, behind, List.filter_map]
  rfl

/-- Nodes with different heads are not consistent. -/
theorem not_isConsistent_of_heads {first second : Address × Snapshot} (mem : first ∈ snapshots)
    (mem' : second ∈ snapshots) (apart : first.2.committedHead ≠ second.2.committedHead) :
    (analyze snapshots).isConsistent = false := by
  by_contra consistent
  cases verdict : analyze snapshots with
  | consistent version head =>
    have level := level_of_analyze verdict
    exact apart ((level first mem).2.trans (level second mem').2.symm)
  | _ =>
    rw [verdict] at consistent
    exact consistent rfl

/-! ## Fleets without faults -/

namespace Fleet

variable {f g : Fleet} {nodes : List Address}

/-- Only the nodes themselves and the faults decide what is discovered. -/
theorem discoverAll_congr (faults : g.faults = f.faults)
    (same : ∀ node ∈ nodes, g.member? node = f.member? node) (limit : Option Span) :
    (g.discoverAll limit nodes).2 = (f.discoverAll limit nodes).2 := by
  induction nodes generalizing f g with
  | nil => rfl
  | cons node rest ih =>
    obtain ⟨here, others⟩ := List.forall_mem_cons.1 same
    have answer : (g.discover node limit).2 = (f.discover node limit).2 := by
      simp only [discover, reach, here, faults]
    have rest : ((g.record node .discover).discoverAll limit rest).2 =
        ((f.record node .discover).discoverAll limit rest).2 := ih faults others
    exact congrArg₂ (fun a r => (node, a) :: r) answer rest

theorem discoverAll_of_found (faultless : f.faults = []) (limit : Option Span)
    {snapshots : Snapshots} (found : ∀ entry ∈ snapshots, ∃ p, f.member? entry.1 = some p ∧
      p.discover = .ok entry.2) : (f.discoverAll limit (snapshots.map (·.1))).2 =
        snapshots.map fun entry => (entry.1, .ok entry.2) := by
  induction snapshots generalizing f with
  | nil => rfl
  | cons entry rest ih =>
    obtain ⟨⟨p, member, shown⟩, others⟩ := List.forall_mem_cons.1 found
    have answer : (f.discover entry.1 limit).2 = .ok entry.2 := by
      simp only [discover, reach, faultless, member, List.lookup_nil, shown, Outcome.mapError_ok]
    have rest : ((f.record entry.1 .discover).discoverAll limit (rest.map (·.1))).2 =
        rest.map fun entry => (entry.1, .ok entry.2) := ih faultless others
    exact congrArg₂ (fun a r => (entry.1, a) :: r) answer rest

theorem check_of_found (faultless : f.faults = []) {snapshots : Snapshots}
    (found : ∀ entry ∈ snapshots, ∃ p, f.member? entry.1 = some p ∧ p.discover = .ok entry.2)
    (patience : Patience) (clock : Clock) :
    ((Pass.check (snapshots.map (·.1))).run patience clock f).2 = ⟨snapshots, []⟩ := by
  rw [← Report.ofAnswers_ok, ← discoverAll_of_found faultless (some patience.discovery) found]
  rfl

theorem exists_found (shown : ∀ node ∈ nodes, ∃ p s, f.member? node = some p ∧
    p.discover = .ok s) : ∃ snapshots : Snapshots, snapshots.map (·.1) = nodes ∧
      ∀ entry ∈ snapshots, ∃ p, f.member? entry.1 = some p ∧ p.discover = .ok entry.2 := by
  induction nodes with
  | nil => exact ⟨[], rfl, List.forall_mem_nil _⟩
  | cons node rest ih =>
    obtain ⟨⟨p, s, member, found⟩, others⟩ := List.forall_mem_cons.1 shown
    obtain ⟨snapshots, rfl, more⟩ := ih others
    exact ⟨(node, s) :: snapshots, rfl, List.forall_mem_cons.2 ⟨⟨p, member, found⟩, more⟩⟩

end Fleet

/-! ## What a node shows after a change -/

namespace Participant

variable {p q : Participant} {h : History} {uuid : Uuid} {version : Nat} {s t : Snapshot}

theorem Stands.shown_state (stands : p.Stands h) (found : p.discover = .ok s) {state : NodeState}
    (read : p.state = .ok state) :
    s.mode = state.mode ∧ s.currentVersion = state.currentVersion := by
  have shows := stands.shows found
  obtain ⟨_, _, settled⟩ := stands
  have tells := tells_of_state settled.keeps read
  exact ⟨shows.mode.trans tells.mode.symm, shows.currentVersion.trans tells.currentVersion.symm⟩

theorem TookPart.level (part : p.TookPart q uuid version .committed) (before : p.discover = .ok s)
    (stands : q.Stands h) (after : q.discover = .ok t) : t.mode = .accepting ∧
      t.currentVersion = version + 1 ∧ t.committedHead = some uuid := by
  obtain ⟨_, _, -, read, -, -, mode, current, -⟩ := part.protocol
  obtain ⟨sameMode, sameVersion⟩ := stands.shown_state after read
  refine ⟨sameMode.trans mode, sameVersion.trans current, ?_⟩
  rw [Snapshot.committedHead, part.committedChain s t before after, if_pos rfl, List.head?_cons]

/-- A node that does not know the change has not committed it. -/
theorem Stands.committedHead_ne (stands : p.Stands h) (new : p.space.stateOf? uuid = none)
    (found : p.discover = .ok s) : s.committedHead ≠ some uuid := by
  rw [(stands.shows found).committedHead]
  intro newest
  obtain ⟨d, first, same⟩ := Option.map_eq_some_iff.1 newest
  obtain ⟨mem, committed⟩ := List.mem_filter.1 (List.mem_of_mem_head? first)
  have recorded := stands.stateOf?_eq_some.2 ⟨d, mem, same, rfl⟩
  rw [new] at recorded
  cases recorded

theorem Stands.of_unconfigured (stands : p.Stands h) (found : p.discover = .ok s)
    (nothing : s.lineage = []) : s.mode = .accepting ∧ s.currentVersion = 0 ∧
      s.committedHead = none := by
  have shows := stands.shows found
  obtain rfl : h = [] := List.map_eq_nil_iff.1 (shows.lineage.symm.trans nothing)
  exact ⟨shows.mode, shows.currentVersion, shows.committedHead⟩

end Participant

/-! ## Operation -/

namespace Fleet

/-- The fleets that an operator brings about who founds a cluster on nodes that get every call, and
then makes changes, each over the peers of some node. A change may fail. -/
inductive Operated : Fleet → Prop
  | founded {f g : Fleet} {sender : Sender} {uuid : Uuid} {cluster : Cluster} {patience : Patience}
      {clock : Clock} {outcome : ChangeOutcome} (faultless : f.faults = [])
      (lived : ∀ nodes, f.Lived nodes) (storable : ∀ n, (clock n).Storable)
      (ran : (onlineChangePass sender uuid (f.logicalStates (cluster.addresses.map Address.mk))
        (.activation cluster)).run patience clock f = (g, .ok outcome)) : Operated g
  | changed {f g : Fleet} {sender : Sender} {uuid : Uuid} {change : Change} {patience : Patience}
      {clock : Clock} {member : Address} {peers : List (Address × LogicalState)}
      {result : Except Error ChangeOutcome} (past : Operated f)
      (found : f.onlineRuntimePeers member = .ok peers) (storable : ∀ n, (clock n).Storable)
      (ran : (onlineChangePass sender uuid peers change).run patience clock f = (g, result)) :
      Operated g

/-- The node is online, and would show a snapshot even with one more request. -/
def Responsive (f : Fleet) (node : Address) : Prop :=
  (f.logicalState node).isOnline = true ∧ ∃ p, f.member? node = some p ∧ p.HasRoom

variable {f g : Fleet}

theorem sound_of_run {α : Type} {pass : Pass α} {patience : Patience} {clock : Clock} {result : α}
    (sound : f.faults = [] ∧ ∀ nodes, f.Lived nodes) (storable : ∀ n, (clock n).Storable)
    (ran : pass.run patience clock f = (g, result)) : g.faults = [] ∧ ∀ nodes, g.Lived nodes := by
  obtain rfl : (pass.run patience clock f).1 = g := congrArg Prod.fst ran
  exact ⟨(pass.run_keeps patience clock f).1.trans sound.1,
    fun nodes => (sound.2 nodes).run pass patience storable⟩

theorem Operated.sound (operated : f.Operated) : f.faults = [] ∧ ∀ nodes, f.Lived nodes := by
  induction operated with
  | founded faultless lived storable ran => exact sound_of_run ⟨faultless, lived⟩ storable ran
  | changed _ _ storable ran ih => exact sound_of_run ih storable ran

end Fleet

/-- The nodes of the outcome have taken the change over since the fleet was `f`, and nothing else
has happened. -/
structure Fleet.Changed (f g : Fleet) (change : Change) (outcome : ChangeOutcome) : Prop where
  took : ∀ node ∈ outcome.nodes, ∃ p q s version, f.member? node = some p ∧
    g.member? node = some q ∧ p.discover = .ok s ∧ outcome.version = version + 1 ∧
    p.TookPart q outcome.uuid version .committed ∧ p.TookOver q change
  others : ∀ node, node ∉ outcome.nodes → g.member? node = f.member? node

/-- What a report on these nodes says once the change has succeeded. Before it the report on them
was the earlier one. -/
structure ChangeOutcome.Reported (outcome : ChangeOutcome) (nodes : List Address)
    (earlier report : Report) : Prop where
  answered : report.responses.map (·.1) = nodes ∧ report.unreachable = []
  together : (∀ node ∈ nodes, node ∈ outcome.nodes) →
    report.state = .consistent outcome.version (some outcome.uuid) ∧
      report.readyVersion = .ok (outcome.version + 1)
  apart : (∃ node ∈ nodes, node ∈ outcome.nodes) → (∃ node ∈ nodes, node ∉ outcome.nodes) →
    report.isConsistent = false ∧
      ((∀ entry ∈ report.responses, entry.1 ∉ outcome.nodes → entry.2.lineage = []) →
        report.state = .lagging (nodes.filter (· ∉ outcome.nodes)))
  aside : (∀ node ∈ nodes, node ∉ outcome.nodes) → report = earlier

namespace Fleet

namespace Changed

variable {f g : Fleet} {change : Change} {outcome : ChangeOutcome} {node : Address}
  {snapshots : Snapshots}

theorem of_run {sender : Sender} {uuid : Uuid} {nodes : List (Address × LogicalState)}
    {patience : Patience} {clock : Clock} (lived : f.Lived (nodes.map (·.1)))
    (distinct : (nodes.map (·.1)).Nodup) (storable : ∀ n, (clock n).Storable)
    (ran : (changePass sender uuid nodes change).run patience clock f = (g, .ok outcome)) :
    f.Changed g change outcome ∧ outcome.uuid = uuid ∧
      ∀ node, node ∈ outcome.nodes ↔ node ∈ nodes.map (·.1) := by
  have ends := ChangePass.ends lived distinct storable ran
  generalize (changePass sender uuid nodes change).transcript patience clock f = calls at ends
  cases ends with
  | committed ready phase reported =>
    rcases reported with ⟨all, reported⟩ | ⟨-, _, reported, -⟩
    · cases reported
      refine ⟨⟨fun node mem => ?_, fun node outside => phase.others node fun mem => outside ?_⟩,
        rfl, fun node => mem_passivesFirst⟩
      · have called := mem_passivesFirst.1 mem
        obtain ⟨p, q, member, after, part, newer⟩ := phase.done node called (all node called)
        obtain ⟨entry, shown, rfl⟩ := ready.shows.entry_mem called
        obtain ⟨p', member', seen⟩ := ready.shows.found entry shown
        cases member.symm.trans member'
        exact ⟨p, q, _, _, member, after, seen, rfl, part, newer⟩
      · exact mem_passivesFirst.2 mem
    · cases reported

variable (changed : f.Changed g change outcome)

include changed

/-- A node that had a topology in effect has one after the change too. -/
theorem runtimeCluster {c : Cluster} (found : f.runtimeCluster node = .ok c) :
    ∃ c', g.runtimeCluster node = .ok c' := by
  by_cases inside : node ∈ outcome.nodes
  · obtain ⟨p, q, _, _, -, after, -, -, -, newer⟩ := changed.took node inside
    obtain ⟨_, result, -, -, runtime, upcoming, -⟩ := newer.applied
    exact ⟨result, runtimeCluster_eq_ok.2 ⟨q, _, after, upcoming, runtime⟩⟩
  · obtain ⟨p, upcoming, before, view⟩ := runtimeCluster_eq_ok.1 found
    exact ⟨c, runtimeCluster_eq_ok.2 ⟨p, upcoming, (changed.others node inside).trans before, view⟩⟩

/-- A node that had room for the change can be asked after it. -/
theorem shown (responsive : f.Responsive node) :
    ∃ q t, g.member? node = some q ∧ q.discover = .ok t := by
  obtain ⟨-, p, member, room⟩ := responsive
  by_cases inside : node ∈ outcome.nodes
  · obtain ⟨p', q, _, _, member', after, -, -, part, -⟩ := changed.took node inside
    cases member.symm.trans member'
    obtain ⟨t, found⟩ := part.shown.2 room
    exact ⟨q, t, after, found⟩
  · obtain ⟨s, found, -⟩ := room
    exact ⟨p, s, (changed.others node inside).trans member, found⟩

theorem level (lived : g.Lived [node]) (inside : node ∈ outcome.nodes) {q : Participant}
    {t : Snapshot} (member : g.member? node = some q) (found : q.discover = .ok t) :
    t.mode = .accepting ∧ t.currentVersion = outcome.version ∧
      t.committedHead = some outcome.uuid := by
  obtain ⟨_, _, past⟩ := lived node List.mem_cons_self q member
  obtain ⟨h, stands⟩ := past.stands
  obtain ⟨p, q', s, version, -, member', before, next, part, -⟩ := changed.took node inside
  cases member.symm.trans member'
  rw [next]
  exact part.level before stands found

theorem apart (lived : g.Lived [node]) (outside : node ∉ outcome.nodes)
    (new : ∀ p, f.member? node = some p → p.space.stateOf? outcome.uuid = none) {q : Participant}
    {t : Snapshot} (member : g.member? node = some q) (found : q.discover = .ok t) :
    t.committedHead ≠ some outcome.uuid ∧ (t.lineage = [] →
      t.mode = .accepting ∧ t.currentVersion = 0 ∧ t.committedHead = none) := by
  obtain ⟨_, _, past⟩ := lived node List.mem_cons_self q member
  obtain ⟨h, stands⟩ := past.stands
  have unknown := new q ((changed.others node outside).symm.trans member)
  exact ⟨stands.committedHead_ne unknown found, stands.of_unconfigured found⟩

theorem reported (lived : ∀ nodes, g.Lived nodes)
    (new : ∀ node p, f.member? node = some p → p.space.stateOf? outcome.uuid = none)
    (nonempty : snapshots ≠ [])
    (found : ∀ entry ∈ snapshots, ∃ p, g.member? entry.1 = some p ∧ p.discover = .ok entry.2)
    {earlier : Report} (before : (∀ node ∈ snapshots.map (·.1), node ∉ outcome.nodes) →
      ⟨snapshots, []⟩ = earlier) :
    outcome.Reported (snapshots.map (·.1)) earlier ⟨snapshots, []⟩ := by
  have level : ∀ entry ∈ snapshots, entry.1 ∈ outcome.nodes → entry.2.mode = .accepting ∧
      entry.2.currentVersion = outcome.version ∧
        entry.2.committedHead = some outcome.uuid := by
    intro entry mem inside
    obtain ⟨q, member, shown⟩ := found entry mem
    exact changed.level (lived _) inside member shown
  have apart : ∀ entry ∈ snapshots, entry.1 ∉ outcome.nodes →
      entry.2.committedHead ≠ some outcome.uuid ∧ (entry.2.lineage = [] →
        entry.2.mode = .accepting ∧ entry.2.currentVersion = 0 ∧
          entry.2.committedHead = none) := by
    intro entry mem outside
    obtain ⟨q, member, shown⟩ := found entry mem
    exact changed.apart (lived _) outside (new entry.1) member shown
  refine ⟨⟨rfl, rfl⟩, fun all => ?_, fun ⟨_, called, inside⟩ ⟨_, called', outside⟩ => ?_, before⟩
  · have level : ∀ entry ∈ snapshots, _ := fun entry mem =>
      level entry mem (all entry.1 (List.mem_map_of_mem mem))
    exact ⟨analyze_of_level nonempty level, Report.readyVersion_of_level nonempty level⟩
  · obtain ⟨first, mem, rfl⟩ := List.mem_map.1 called
    obtain ⟨last, mem', rfl⟩ := List.mem_map.1 called'
    obtain ⟨-, -, head⟩ := level first mem inside
    refine ⟨not_isConsistent_of_heads mem mem' fun same => ?_, fun bare => ?_⟩
    · exact (apart last mem' outside).1 (same.symm.trans head)
    · obtain ⟨_, _, _, version, -, -, -, next, -⟩ := changed.took first.1 inside
      rw [next] at level
      have ahead : ∀ entry ∈ snapshots, decide (entry.1 ∈ outcome.nodes) = true → _ :=
        fun entry mem inside => level entry mem (of_decide_eq_true inside)
      have blank : ∀ entry ∈ snapshots, decide (entry.1 ∈ outcome.nodes) = false → _ :=
        fun entry mem outside => (apart entry mem (of_decide_eq_false outside)).2
          (bare entry mem (of_decide_eq_false outside))
      have verdict := analyze_of_behind (fun node => decide (node ∈ outcome.nodes)) ahead blank
        ⟨first, mem, decide_eq_true inside⟩ ⟨last, mem', decide_eq_false outside⟩
      refine verdict.trans ?_
      simp

end Changed

variable {f g : Fleet} {member : Address} {peers : List (Address × LogicalState)} {sender : Sender}
  {uuid : Uuid} {change : Change} {patience : Patience} {clock : Clock} {outcome : ChangeOutcome}

/-- Once a change has succeeded, the peers are the nodes of the topology that it has led to. Those
of them took part that were peers before. If all of them were, they are level and ready for the next
change. If only some of them were, they are not consistent, and nodes without any request lag
behind. -/
theorem Operated.change_reported (operated : f.Operated)
    (found : f.onlineRuntimePeers member = .ok peers) (storable : ∀ n, (clock n).Storable)
    (new : ∀ node p, f.member? node = some p → p.space.stateOf? uuid = none)
    (ran : (onlineChangePass sender uuid peers change).run patience clock f = (g, .ok outcome))
    (responsive : ∀ c, g.runtimeCluster member = .ok c →
      ∀ address ∈ c.addresses, f.Responsive ⟨address⟩) :
    ∃ c c' after, f.runtimeCluster member = .ok c ∧ g.runtimeCluster member = .ok c' ∧
      g.onlineRuntimePeers member = .ok after ∧
      after.map (·.1) = c'.addresses.map Address.mk ∧
      (∀ node ∈ after.map (·.1), node ∈ outcome.nodes ↔ node ∈ c.addresses.map Address.mk) ∧
      ∀ patience clock, outcome.Reported (after.map (·.1))
        ((Pass.check (after.map (·.1))).run patience clock f).2
        ((Pass.check (after.map (·.1))).run patience clock g).2 := by
  obtain ⟨faultless, lived⟩ := operated.sound
  obtain ⟨faultless', lived'⟩ := sound_of_run ⟨faultless, lived⟩ storable ran
  have states : g.states = f.states := by
    obtain rfl := congrArg Prod.fst ran
    exact (Pass.run_keeps _ _ _ _).2
  rw [onlineChangePass, filterOnline_peers found] at ran
  obtain ⟨changed, rfl, took⟩ := Changed.of_run (lived _) (peers_nodup lived found) storable ran
  obtain ⟨c, runtime, -⟩ := onlineRuntimePeers_eq_ok.1 found
  obtain ⟨c', runtime'⟩ := changed.runtimeCluster runtime
  have serves : ∀ node ∈ c'.addresses.map Address.mk, f.Responsive node :=
    List.forall_mem_map.2 (responsive c' runtime')
  have online : ∀ node ∈ c'.addresses.map Address.mk, (g.logicalState node).isOnline = true := by
    intro node mem
    rw [logicalState, states]
    exact (serves node mem).1
  obtain ⟨snapshots, listed, shown⟩ := exists_found fun node mem => changed.shown (serves node mem)
  have nonempty : snapshots ≠ [] := by
    rintro rfl
    exact (formed_of_runtimeCluster lived' runtime').1 (List.map_eq_nil_iff.1 listed.symm)
  refine ⟨c, c', _, runtime, runtime', onlineRuntimePeers_eq_ok.2 ⟨c', runtime', rfl⟩, ?_⟩
  rw [map_filterOnline online]
  refine ⟨rfl, fun node mem => ?_, fun patience clock => ?_⟩
  · rw [took, mem_peers found runtime, and_iff_left (serves node mem).1]
  · rw [← listed, check_of_found faultless' shown]
    refine changed.reported lived' new nonempty shown fun aside => ?_
    rw [← check_of_found faultless' shown patience clock]
    exact congrArg Report.ofAnswers (discoverAll_congr (faultless'.trans faultless.symm)
      (fun node mem => changed.others node (aside node mem)) _)

/-! ## Two of three nodes

A cluster is founded on two of three new nodes, and is then changed over the peers of the first. -/

def pairCluster : Cluster :=
  ⟨"c", [⟨"s", [⟨"a", "a", 1, ∅, ∅⟩, ⟨"b", "b", 1, ∅, ∅⟩]⟩], ∅⟩

/-- The run of an operator who makes the change on these nodes. -/
def operatorRun (uuid : Uuid) (nodes : List (Address × LogicalState)) (change : Change)
    (f : Fleet) : Fleet × Except Error ChangeOutcome :=
  (onlineChangePass ⟨"east", "ops"⟩ uuid nodes change).run ⟨⟨1000⟩, ⟨1000⟩⟩
    .everySecond f

theorem trio_unhindered : trio.Unhindered ⟨none⟩ fun _ => [] := by
  refine ⟨rfl, fun {node p} member => ?_⟩
  obtain ⟨name, rfl⟩ := trio_member member
  exact Participant.unhindered_blank name

theorem trio_registered : ∀ node ∈ trioNodes, ∃ p, trio.member? node = some p :=
  trio_healthy.member

theorem founder_mem : ∀ node ∈ ChangePass.founders.map (·.1), node ∈ trioNodes := by decide

theorem logicalState_of_trio (states : f.states = trio.states) :
    f.logicalState = trio.logicalState := by
  funext node
  rw [logicalState, logicalState, states]

/-- Changes that went through on the first two of the nodes, the newest first, have led to this
topology, and the third node is new. -/
structure Pair (f : Fleet) (H : Histories) (uuids : List Uuid) (c : Option Cluster) : Prop where
  states : f.states = trio.states
  unhindered : f.Unhindered ⟨none⟩ H
  registered : ∀ node ∈ trioNodes, ∃ p, f.member? node = some p
  founders : ∀ node ∈ ChangePass.founders.map (·.1), (H node).map (·.uuid) = uuids ∧
    (∀ d ∈ H node, d.state = .committed) ∧ (H node).topology = c
  effect : ∀ node ∈ ChangePass.founders.map (·.1), ∃ q, f.member? node = some q ∧
    q.runtimeTopology = c ∧ q.upcomingTopology = .ok c
  others : ∀ node, node ∉ ChangePass.founders.map (·.1) → H node = []

theorem trio_pair : trio.Pair (fun _ => []) [] none where
  states := rfl
  unhindered := trio_unhindered
  registered := trio_registered
  founders _ _ := ⟨rfl, List.forall_mem_nil _, rfl⟩
  effect node mem := by
    obtain ⟨p, member⟩ := trio_registered node (founder_mem node mem)
    obtain ⟨name, rfl⟩ := trio_member member
    exact ⟨_, member, rfl, rfl⟩
  others _ _ := rfl

namespace Pair

variable {H : Histories} {uuids : List Uuid} {c : Option Cluster} {result : Cluster}

theorem level (pair : f.Pair H uuids c) :
    H.Level (ChangePass.founders.map (·.1)) uuids.length uuids.head? := by
  intro node mem
  obtain ⟨rfl, committed, -⟩ := pair.founders node mem
  have all : (H node).committed = H node :=
    List.filter_eq_self.2 fun d mem => by simp [committed d mem]
  refine ⟨?_, ?_, ?_⟩
  · refine History.mode_eq_accepting_iff.2 fun d newest => ?_
    rw [committed d (List.mem_of_mem_head? newest)]
    decide
  · rw [History.version, all, List.length_map]
  · rw [History.head, all, List.head?_map]

theorem length_le (pair : f.Pair H uuids c) (node : Address) : (H node).length ≤ uuids.length := by
  by_cases inside : node ∈ ChangePass.founders.map (·.1)
  · obtain ⟨rfl, -⟩ := pair.founders node inside
    exact Nat.le_of_eq (List.length_map _).symm
  · rw [pair.others node inside]
    exact Nat.zero_le _

theorem unknown (pair : f.Pair H uuids c) (fresh : uuid ∉ uuids) (node : Address) :
    ∀ d ∈ H node, d.uuid ≠ uuid := by
  intro d held same
  by_cases inside : node ∈ ChangePass.founders.map (·.1)
  · rw [← (pair.founders node inside).1] at fresh
    exact fresh (same ▸ List.mem_map_of_mem held)
  · rw [pair.others node inside] at held
    cases held

theorem run (pair : f.Pair H uuids c) (fresh : uuid ∉ uuids) (room : uuids.length < chainLimit)
    (valid : change.validate c ⟨none⟩ = .ok result) : ∃ g H',
      operatorRun uuid ChangePass.founders change f =
        (g, .ok ⟨uuid, uuids.length + 1, [⟨"a:1"⟩, ⟨"b:1"⟩]⟩) ∧
      g.Pair H' (uuid :: uuids) (some result) := by
  obtain ⟨states, unhindered, registered, founders, effect, others⟩ := id pair
  have everywhere : ∀ node ∈ ChangePass.founders.map (·.1), ∃ result,
      change.validate (H node).topology ⟨none⟩ = .ok result := fun node mem =>
    ⟨result, (founders node mem).2.2 ▸ valid⟩
  obtain ⟨g, H', ran, unhindered', taken, left⟩ := unhindered.changePass ⟨"east", "ops"⟩
    ⟨⟨1000⟩, ⟨1000⟩⟩ (fun node mem => registered node (founder_mem node mem)) (by decide)
    (by decide) pair.level (fun node _ => Nat.lt_of_le_of_lt (pair.length_le node) room)
    (fun node _ => pair.unknown fresh node) everywhere
    Clock.storable_everySecond
  have applied : change.apply c = .ok result := (Change.validate_eq_ok.1 valid).1
  refine ⟨g, H', ran, ?_, unhindered', fun node mem => ?_, fun node mem => ?_, fun node mem => ?_,
    fun node outside => (left node outside).2.trans (others node outside)⟩
  · have kept := (Pass.run_keeps (onlineChangePass ⟨"east", "ops"⟩ uuid ChangePass.founders change)
      ⟨⟨1000⟩, ⟨1000⟩⟩ .everySecond f).2
    exact ((congrArg (Fleet.states ·.1) ran).symm.trans kept).trans states
  · by_cases inside : node ∈ ChangePass.founders.map (·.1)
    · obtain ⟨q, _, member, -⟩ := taken node inside
      exact ⟨q, member⟩
    · rw [(left node inside).1]
      exact registered node mem
  · obtain ⟨_, d, -, shape, same, committed, result', -⟩ := taken node mem
    obtain ⟨before, closed, topology⟩ := founders node mem
    rw [topology, applied] at result'
    rw [shape, History.topology_cons, if_pos committed, Except.ok.inj result', List.map_cons,
      before, same]
    exact ⟨rfl, List.forall_mem_cons.2 ⟨committed, closed⟩, rfl⟩
  · obtain ⟨q, d, member, -, -, -, result', runtime, upcoming⟩ := taken node mem
    rw [(founders node mem).2.2, applied] at result'
    rw [← Except.ok.inj result'] at runtime upcoming
    exact ⟨q, member, runtime, upcoming⟩

/-- Each of the three nodes has room for another request. -/
theorem responsive (pair : f.Pair H uuids c) (room : uuids.length < chainLimit) :
    ∀ node ∈ trioNodes, f.Responsive node := by
  intro node mem
  refine ⟨?_, ?_⟩
  · rw [logicalState_of_trio pair.states]
    revert node
    decide
  · obtain ⟨p, member⟩ := pair.registered node mem
    have stands := pair.unhindered.stand [node] node List.mem_cons_self p member
    exact ⟨p, member, stands.hasRoom_iff.2 (Nat.lt_of_le_of_lt (pair.length_le node) room)⟩

/-- The third node has no requests. -/
theorem unconfigured (pair : f.Pair H uuids c) : ∃ p s, f.member? ⟨"c:1"⟩ = some p ∧
    p.discover = .ok s ∧ s.lineage = [] := by
  obtain ⟨p, member⟩ := pair.registered ⟨"c:1"⟩ (by decide)
  have stands := pair.unhindered.stand [⟨"c:1"⟩] ⟨"c:1"⟩ List.mem_cons_self p member
  rw [pair.others ⟨"c:1"⟩ (by decide)] at stands
  obtain ⟨s, found⟩ := stands.shown_iff.2 (Nat.zero_le _)
  exact ⟨p, s, member, found, (stands.shows found).lineage⟩

theorem stateOf?_eq_none (pair : f.Pair H uuids c) (fresh : uuid ∉ uuids) :
    ∀ node p, f.member? node = some p → p.space.stateOf? uuid = none := by
  intro node p member
  by_contra recorded
  obtain ⟨state, recorded⟩ := Option.ne_none_iff_exists'.1 recorded
  have stands := pair.unhindered.stand [node] node List.mem_cons_self p member
  obtain ⟨d, held, same, -⟩ := stands.stateOf?_eq_some.1 recorded
  exact pair.unknown fresh node d held same

theorem runtimeCluster {c : Cluster} (pair : f.Pair H uuids (some c)) :
    f.runtimeCluster ⟨"a:1"⟩ = .ok c := by
  obtain ⟨q, member, runtime, upcoming⟩ := pair.effect ⟨"a:1"⟩ (by decide)
  exact runtimeCluster_eq_ok.2 ⟨q, _, member, upcoming, runtime⟩

theorem onlineRuntimePeers {c : Cluster} (pair : f.Pair H uuids (some c)) :
    f.onlineRuntimePeers ⟨"a:1"⟩ =
      .ok (filterOnline (trio.logicalStates (c.addresses.map Address.mk))) := by
  refine onlineRuntimePeers_eq_ok.2 ⟨c, pair.runtimeCluster, ?_⟩
  rw [logicalStates, logicalStates, logicalState_of_trio pair.states]

/-- Without requests of its own the third node lags behind the others. -/
theorem report_lagging (pair : f.Pair H (uuid :: uuids) c) (room : uuids.length < chainLimit)
    (patience : Patience) (clock : Clock) :
    ((Pass.check trioNodes).run patience clock f).2.state = .lagging [⟨"c:1"⟩] := by
  have short : ∀ node ∈ trioNodes, (H node).length ≤ chainLimit := fun node _ =>
    Nat.le_trans (pair.length_le node) room
  obtain ⟨snapshots, shown, checked, -⟩ :=
    (pair.unhindered.healthy pair.registered short).check patience clock
  have ahead : ∀ entry ∈ snapshots, decide (entry.1 ∈ ChangePass.founders.map (·.1)) = true →
      entry.2.mode = .accepting ∧ entry.2.currentVersion = uuids.length + 1 ∧
        entry.2.committedHead = some uuid := by
    intro entry mem inside
    obtain ⟨idle, version, head⟩ := pair.level entry.1 (of_decide_eq_true inside)
    have shows := shown.shows entry mem
    exact ⟨shows.mode.trans idle, shows.currentVersion.trans version,
      shows.committedHead.trans head⟩
  have blank : ∀ entry ∈ snapshots, decide (entry.1 ∈ ChangePass.founders.map (·.1)) = false →
      entry.2.mode = .accepting ∧ entry.2.currentVersion = 0 ∧ entry.2.committedHead = none := by
    intro entry mem outside
    have shows := shown.shows entry mem
    rw [pair.others entry.1 (of_decide_eq_false outside)] at shows
    exact ⟨shows.mode, shows.currentVersion, shows.committedHead⟩
  obtain ⟨first, mem, isFirst⟩ := shown.entry_mem (show ⟨"a:1"⟩ ∈ trioNodes by decide)
  obtain ⟨last, mem', isLast⟩ := shown.entry_mem (show ⟨"c:1"⟩ ∈ trioNodes by decide)
  have verdict := analyze_of_behind (fun node => decide (node ∈ ChangePass.founders.map (·.1)))
    ahead blank ⟨first, mem, by rw [isFirst]; decide⟩ ⟨last, mem', by rw [isLast]; decide⟩
  rw [checked]
  rw [shown.nodes] at verdict
  exact verdict.trans (by decide)

end Pair

/-- Two of three new nodes, founded by an operator. -/
theorem operated_pair : ∃ (f : Fleet) (H : Histories), f.Operated ∧
    f.Pair H [⟨.replicate 32 1⟩] (some pairCluster) ∧
    f.onlineRuntimePeers ⟨"a:1"⟩ = .ok ChangePass.founders := by
  have valid : (Change.activation pairCluster).validate none ⟨none⟩ = .ok pairCluster :=
    Change.validate_eq_ok.2 ⟨rfl, rfl, rfl⟩
  have fresh : (⟨.replicate 32 1⟩ : Uuid) ∉ [] := List.not_mem_nil
  obtain ⟨f, H, ran, pair⟩ := trio_pair.run fresh (by decide) valid
  have peers : trio.logicalStates (pairCluster.addresses.map Address.mk) = ChangePass.founders := by
    decide
  have found := pair.onlineRuntimePeers
  rw [peers] at found
  exact ⟨f, H, .founded rfl trio_lived Clock.storable_everySecond (peers ▸ ran), pair, found⟩

/-- The setting goes through, and the two nodes are ready for the next change. -/
theorem operated_pair_reported : ∃ f g after, f.Operated ∧
    f.onlineRuntimePeers ⟨"a:1"⟩ = .ok ChangePass.founders ∧
    operatorRun ⟨.replicate 32 2⟩ ChangePass.founders sharedChange f =
      (g, .ok ⟨⟨.replicate 32 2⟩, 2, [⟨"a:1"⟩, ⟨"b:1"⟩]⟩) ∧
    g.onlineRuntimePeers ⟨"a:1"⟩ = .ok after ∧ after.map (·.1) = [⟨"a:1"⟩, ⟨"b:1"⟩] ∧
    ∀ patience clock,
      ((Pass.check (after.map (·.1))).run patience clock g).2.state =
        .consistent 2 (some ⟨.replicate 32 2⟩) ∧
      ((Pass.check (after.map (·.1))).run patience clock g).2.readyVersion = .ok 3 := by
  obtain ⟨f, H, operated, pair, found⟩ := operated_pair
  have fresh : (⟨.replicate 32 2⟩ : Uuid) ∉ [⟨.replicate 32 1⟩] := by decide
  have valid : sharedChange.validate (some pairCluster) ⟨none⟩ =
      .ok { pairCluster with settings := (∅ : Dict String).insert "k" "v" } :=
    Change.validate_eq_ok.2 ⟨rfl, rfl, rfl⟩
  obtain ⟨g, H', ran, pair'⟩ := pair.run fresh (by decide) valid
  have responsive : ∀ c, g.runtimeCluster ⟨"a:1"⟩ = .ok c →
      ∀ address ∈ c.addresses, f.Responsive ⟨address⟩ := by
    intro c runtime address named
    cases pair'.runtimeCluster.symm.trans runtime
    have within : ∀ address ∈ pairCluster.addresses, ⟨address⟩ ∈ trioNodes := by decide
    exact pair.responsive (by decide) ⟨address⟩ (within address named)
  obtain ⟨c, c', after, -, runtime, found', listed, -, reported⟩ :=
    operated.change_reported found Clock.storable_everySecond (pair.stateOf?_eq_none fresh) ran
      responsive
  cases pair'.runtimeCluster.symm.trans runtime
  have nodes : after.map (·.1) = [⟨"a:1"⟩, ⟨"b:1"⟩] := listed
  refine ⟨f, g, after, operated, found, ran, found', nodes, fun patience clock => ?_⟩
  exact (reported patience clock).together (by rw [nodes]; exact fun _ mem => mem)

/-- A node that is attached lags behind. Its cluster was founded on all its nodes, the change was
made on all of them, and every node that is named answers. -/
theorem operated_pair_lags : ∃ f g after, f.Operated ∧
    f.onlineRuntimePeers ⟨"a:1"⟩ = .ok ChangePass.founders ∧
    operatorRun ⟨.replicate 32 2⟩ ChangePass.founders
      (.nodeAddition "s" ⟨"c", "c", 1, ∅, ∅⟩) f =
        (g, .ok ⟨⟨.replicate 32 2⟩, 2, [⟨"a:1"⟩, ⟨"b:1"⟩]⟩) ∧
    (∀ node ∈ trioNodes, f.Responsive node) ∧
    (∃ p s, f.member? ⟨"c:1"⟩ = some p ∧ p.discover = .ok s ∧ s.lineage = []) ∧
    g.onlineRuntimePeers ⟨"a:1"⟩ = .ok after ∧ after.map (·.1) = trioNodes ∧
    ∀ patience clock,
      ((Pass.check (after.map (·.1))).run patience clock g).2.state = .lagging [⟨"c:1"⟩] := by
  obtain ⟨f, H, operated, pair, found⟩ := operated_pair
  have fresh : (⟨.replicate 32 2⟩ : Uuid) ∉ [⟨.replicate 32 1⟩] := by decide
  have valid : (Change.nodeAddition "s" ⟨"c", "c", 1, ∅, ∅⟩).validate (some pairCluster) ⟨none⟩ =
      .ok ⟨"c", [⟨"s", [⟨"a", "a", 1, ∅, ∅⟩, ⟨"b", "b", 1, ∅, ∅⟩, ⟨"c", "c", 1, ∅, ∅⟩]⟩], ∅⟩ :=
    Change.validate_eq_ok.2 ⟨rfl, rfl, rfl⟩
  obtain ⟨g, H', ran, pair'⟩ := pair.run fresh (by decide) valid
  refine ⟨f, g, _, operated, found, ran, pair.responsive (by decide), pair.unconfigured,
    pair'.onlineRuntimePeers, by decide, fun patience clock => ?_⟩
  exact pair'.report_lagging (by decide) patience clock

end Fleet

end Reconfig
