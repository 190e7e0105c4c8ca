/-
What reports on nodes say, where snapshots show the histories of the nodes.
-/
import Reconfig.Proofs.Coordination.Histories
import Reconfig.Proofs.Coordination.Verdicts

namespace Reconfig

/-- Snapshots of the nodes that show these histories. -/
structure Snapshots.Show (snapshots : Snapshots) (nodes : List Address) (H : Histories) :
    Prop where
  nodes : snapshots.map (·.1) = nodes
  shows : ∀ entry ∈ snapshots, entry.2.Shows (H entry.1)

/-- The nodes are idle and level. -/
def Histories.Level (H : Histories) (nodes : List Address) (version : Nat)
    (head : Option Uuid) : Prop :=
  ∀ node ∈ nodes, (H node).mode = .accepting ∧ (H node).version = version ∧ (H node).head = head

namespace Histories.Level

variable {H₀ H : Histories} {nodes : List Address} {uuid : Uuid} {version : Nat}
  {head : Option Uuid}

/-- A change that was rolled back wherever it was prepared leaves the nodes level. -/
theorem of_rolledBack (before : H₀.Level nodes version head)
    (each : ∀ node ∈ nodes, H node = H₀ node ∨
      ∃ d, H node = d :: H₀ node ∧ d.state = .rolledBack) : H.Level nodes version head := by
  intro node mem
  obtain ⟨idle, sameVersion, sameHead⟩ := before node mem
  rcases each node mem with start | ⟨d, shape, rolledBack⟩
  · rw [start]
    exact ⟨idle, sameVersion, sameHead⟩
  · have uncommitted : d.state ≠ .committed := by
      rw [rolledBack]
      decide
    rw [shape, History.head, History.version_cons, History.committed_cons, if_neg uncommitted,
      if_neg uncommitted, sameVersion]
    refine ⟨?_, rfl, sameHead⟩
    rw [History.mode, rolledBack]
    rfl

/-- A change that was committed on all nodes leaves them level at the next version. -/
theorem of_committed (before : H₀.Level nodes version head)
    (each : ∀ node ∈ nodes, ∃ d, H node = d :: H₀ node ∧ d.uuid = uuid ∧
      d.state = .committed) : H.Level nodes (version + 1) (some uuid) := by
  intro node mem
  obtain ⟨d, shape, same, committed⟩ := each node mem
  obtain ⟨-, sameVersion, -⟩ := before node mem
  rw [shape, History.head, History.version_cons, History.committed_cons, if_pos committed,
    if_pos committed, sameVersion]
  refine ⟨?_, rfl, congrArg some same⟩
  rw [History.mode, committed]
  rfl

end Histories.Level

namespace Snapshots.Show

variable {snapshots : Snapshots} {nodes : List Address} {H : Histories} {version : Nat}
  {head : Option Uuid}

theorem node_mem (shown : snapshots.Show nodes H) {entry : Address × Snapshot}
    (mem : entry ∈ snapshots) : entry.1 ∈ nodes := by
  rw [← shown.nodes]
  exact List.mem_map_of_mem mem

theorem entry_mem (shown : snapshots.Show nodes H) {node : Address} (mem : node ∈ nodes) :
    ∃ entry ∈ snapshots, entry.1 = node := by
  rw [← shown.nodes] at mem
  exact List.mem_map.1 mem

theorem ne_nil (shown : snapshots.Show nodes H) (nonempty : nodes ≠ []) : snapshots ≠ [] := by
  rintro rfl
  exact nonempty shown.nodes.symm

theorem entries_level (shown : snapshots.Show nodes H) (level : H.Level nodes version head) :
    ∀ entry ∈ snapshots, entry.2.mode = .accepting ∧ entry.2.currentVersion = version ∧
      entry.2.committedHead = head := by
  intro entry mem
  have shows := shown.shows entry mem
  rw [shows.mode, shows.currentVersion, shows.committedHead]
  exact level entry.1 (shown.node_mem mem)

theorem analyze_of_level (shown : snapshots.Show nodes H) (nonempty : nodes ≠ [])
    (level : H.Level nodes version head) : analyze snapshots = .consistent version head :=
  Reconfig.analyze_of_level (shown.ne_nil nonempty) (shown.entries_level level)

theorem level_of_analyze (shown : snapshots.Show nodes H)
    (verdict : analyze snapshots = .consistent version head) : H.Level nodes version head := by
  intro node called
  obtain ⟨entry, mem, rfl⟩ := shown.entry_mem called
  have shows := shown.shows entry mem
  have ⟨sameVersion, sameHead⟩ := Reconfig.level_of_analyze verdict entry mem
  refine ⟨?_, shows.currentVersion ▸ sameVersion, shows.committedHead ▸ sameHead⟩
  rcases mode : (H entry.1).mode with _ | _
  · rfl
  · have latest := latest_of_analyze verdict mem (shows.mode.trans mode)
    obtain ⟨d, below, shape, -⟩ := History.mode_eq_prepared_iff.1 mode
    rw [shows.latest, shape] at latest
    cases latest

theorem mem_holding (shown : snapshots.Show nodes H) {uuid : Uuid}
    {unreachable : List (Address × CallError)} {target : Address × Nat}
    (held : target ∈ (Report.mk snapshots unreachable).holding uuid) :
    target.1 ∈ nodes ∧ ∃ d below, H target.1 = d :: below ∧ d.uuid = uuid ∧
      d.state = .prepared ∧ target.2 = History.messages (d :: below) := by
  rw [Report.holding] at held
  obtain ⟨entry, found, rfl⟩ := List.mem_map.1 held
  have ⟨mem, open_⟩ := List.mem_filter.1 found
  have shows := shown.shows entry mem
  simp only [Bool.and_eq_true, beq_iff_eq, shows.mode, shows.latest] at open_
  obtain ⟨prepared, latest⟩ := open_
  obtain ⟨d, below, shape, inFlight⟩ := History.mode_eq_prepared_iff.1 prepared
  refine ⟨shown.node_mem mem, d, below, shape, ?_, inFlight, ?_⟩
  · rw [shape] at latest
    exact Option.some.inj latest
  · rw [← shape]
    exact shows.count

theorem holding_nodup (shown : snapshots.Show nodes H) (distinct : nodes.Nodup) (uuid : Uuid)
    (unreachable : List (Address × CallError)) :
    (((Report.mk snapshots unreachable).holding uuid).map (·.1)).Nodup := by
  rw [← shown.nodes] at distinct
  refine List.Nodup.sublist ?_ distinct
  rw [Report.holding, List.map_map]
  exact List.filter_sublist.map _

theorem mem_holding_of_prepared (shown : snapshots.Show nodes H)
    {unreachable : List (Address × CallError)} {node : Address} (called : node ∈ nodes)
    {d : ChangeDetails} {below : History}
    (shape : H node = d :: below) (inFlight : d.state = .prepared) :
    node ∈ ((Report.mk snapshots unreachable).holding d.uuid).map (·.1) := by
  obtain ⟨entry, mem, rfl⟩ := shown.entry_mem called
  have shows := shown.shows entry mem
  rw [Report.holding, List.map_map]
  refine List.mem_map.2 ⟨entry, List.mem_filter.2 ⟨mem, ?_⟩, rfl⟩
  have prepared : (H entry.1).mode = .prepared :=
    History.mode_eq_prepared_iff.2 ⟨d, below, shape, inFlight⟩
  have latest : entry.2.latestUuid = some d.uuid := by
    rw [shows.latest, shape]
    rfl
  simp [shows.mode, prepared, latest]

theorem readyVersion_eq (shown : snapshots.Show nodes H) (nonempty : nodes ≠ [])
    (level : H.Level nodes version head) :
    (Report.mk snapshots []).readyVersion = .ok (version + 1) :=
  Report.readyVersion_of_level (shown.ne_nil nonempty) (shown.entries_level level)

theorem counts_eq (shown : snapshots.Show nodes H) {order : List Address}
    (called : ∀ node ∈ order, node ∈ nodes) (unreachable : List (Address × CallError)) :
    (Report.mk snapshots unreachable).counts order =
      .ok (order.map fun node => (node, (H node).messages)) := by
  induction order with
  | nil => rfl
  | cons node rest ih =>
    have ih := ih fun other mem => called other (List.mem_cons_of_mem _ mem)
    obtain ⟨entry, mem, rfl⟩ := shown.entry_mem (called node List.mem_cons_self)
    obtain ⟨s, response⟩ : ∃ s, (Report.mk snapshots unreachable).response? entry.1 = some s :=
      Option.isSome_iff_exists.1 (List.lookup_isSome_iff.2 ⟨entry, mem, by simp⟩)
    have count : s.count = (H entry.1).messages :=
      (shown.shows (entry.1, s) (Report.mem_of_response response)).count
    rw [Report.counts] at ih ⊢
    rw [List.mapM_cons, ih, response]
    simp [count]

theorem holding_eq (shown : snapshots.Show nodes H) {uuid : Uuid}
    (held : ∀ node ∈ nodes, (H node).mode = .prepared ∧ (H node).latest = some uuid)
    (unreachable : List (Address × CallError)) :
    (Report.mk snapshots unreachable).holding uuid =
      nodes.map fun node => (node, (H node).messages) := by
  have all : snapshots.filter (fun entry =>
      entry.2.mode == .prepared && entry.2.latestUuid == some uuid) = snapshots := by
    rw [List.filter_eq_self]
    intro entry mem
    have shows := shown.shows entry mem
    have ⟨prepared, latest⟩ := held entry.1 (shown.node_mem mem)
    simp [shows.mode, shows.latest, prepared, latest]
  rw [Report.holding, all, ← shown.nodes, List.map_map]
  refine List.map_congr_left fun entry mem => ?_
  rw [(shown.shows entry mem).count]
  rfl

end Snapshots.Show

end Reconfig
