/-
Changes that some nodes have committed and others have rolled back.

No repair can bring such nodes together. The analysis says so of the change that is in flight. Of
every other change it only looks at the nodes that have committed it, so that a rollback which
contradicts them does not show in the verdict.
-/
import Reconfig.Proofs.Coordination.Recoveries

namespace Reconfig

namespace Snapshot

/-- The node shows that it has the change in this state. -/
def Records (s : Snapshot) (uuid : Uuid) (state : ChangeState) : Prop :=
  ∃ e ∈ s.lineage, e.uuid = uuid ∧ e.state = state

/-- What the node would show if it had not rolled the change back, but never prepared it. -/
def withoutRollback (s : Snapshot) (uuid : Uuid) : Snapshot :=
  { s with lineage := s.lineage.filter fun e => !(e.uuid == uuid && e.state == .rolledBack) }

variable (s : Snapshot) {uuid other : Uuid}

@[simp] theorem mode_withoutRollback : (s.withoutRollback uuid).mode = s.mode := rfl

@[simp] theorem latestUuid_withoutRollback :
    (s.withoutRollback uuid).latestUuid = s.latestUuid := rfl

@[simp] theorem currentVersion_withoutRollback :
    (s.withoutRollback uuid).currentVersion = s.currentVersion := rfl

@[simp] theorem committedChain_withoutRollback :
    (s.withoutRollback uuid).committedChain = s.committedChain := by
  rw [committedChain, committedChain, withoutRollback, List.filter_filter]
  congr 1
  refine List.filter_congr fun e _ => ?_
  cases e.state <;> simp

@[simp] theorem committedHead_withoutRollback :
    (s.withoutRollback uuid).committedHead = s.committedHead := by
  rw [committedHead, committedChain_withoutRollback, committedHead]

@[simp] theorem hasCommitted_withoutRollback :
    (s.withoutRollback uuid).hasCommitted other = s.hasCommitted other := by
  rw [hasCommitted, committedChain_withoutRollback, hasCommitted]

theorem stateOf?_withoutRollback (different : other ≠ uuid) :
    (s.withoutRollback uuid).stateOf? other = s.stateOf? other := by
  rw [stateOf?, stateOf?, withoutRollback, List.find?_filter]
  congr 2
  funext e
  by_cases same : e.uuid = other
  · simp [same, different]
  · simp [same]

end Snapshot

namespace Snapshots

/-- Nodes that are in states that they can come to have shown these snapshots. -/
def Lived (snapshots : Snapshots) : Prop :=
  ∀ entry ∈ snapshots, ∃ limits accepted p, Participant.Lived limits accepted p ∧
    p.discover = .ok entry.2

/-- One node has committed the change, and another one has rolled it back. -/
structure Conflict (snapshots : Snapshots) (uuid : Uuid) : Prop where
  committed : ∃ entry ∈ snapshots, entry.2.Records uuid .committed
  rolledBack : ∃ entry ∈ snapshots, entry.2.Records uuid .rolledBack

/-- What the nodes would show if those that have rolled the change back had never prepared it. -/
def withoutRollback (snapshots : Snapshots) (uuid : Uuid) : Snapshots :=
  snapshots.map fun entry => (entry.1, entry.2.withoutRollback uuid)

variable {snapshots : Snapshots} {uuid : Uuid} {state : ChangeState}

theorem Lived.stateOf? (lived : snapshots.Lived) {entry : Address × Snapshot}
    (mem : entry ∈ snapshots) (recorded : entry.2.Records uuid state) :
    entry.2.stateOf? uuid = some state := by
  obtain ⟨limits, accepted, p, lives, found⟩ := lived entry mem
  obtain ⟨h, stands⟩ := lives.stands
  obtain ⟨e, listed, same, is⟩ := recorded
  rw [(stands.shows found).lineage, History.entries] at listed
  obtain ⟨d, mem', rfl⟩ := List.mem_map.1 listed
  rw [stands.shown_stateOf? found, stands.stateOf?_eq_some]
  exact ⟨d, mem', same, is⟩

theorem Lived.recordedAs (lived : snapshots.Lived)
    (recorded : ∃ entry ∈ snapshots, entry.2.Records uuid state) :
    Analysis.recordedAs snapshots uuid state = true := by
  obtain ⟨entry, mem, recorded⟩ := recorded
  exact Analysis.recordedAs_eq_true.2 ⟨entry, mem, lived.stateOf? mem recorded⟩

end Snapshots

/-! ## The verdict on a rollback -/

namespace Analysis

variable {snapshots : Snapshots} {uuid other : Uuid}

theorem preparedChanges_withoutRollback :
    preparedChanges (snapshots.withoutRollback uuid) = preparedChanges snapshots := by
  rw [preparedChanges, preparedChanges, Snapshots.withoutRollback, List.filter_map,
    List.filterMap_map]
  rfl

theorem heads_withoutRollback : heads (snapshots.withoutRollback uuid) = heads snapshots := by
  rw [heads, heads, Snapshots.withoutRollback, List.map_map]
  congr 2
  funext entry
  exact entry.2.committedHead_withoutRollback

theorem recordedAs_withoutRollback (different : other ≠ uuid) (state : ChangeState) :
    recordedAs (snapshots.withoutRollback uuid) other state =
      recordedAs snapshots other state := by
  rw [recordedAs, recordedAs, Snapshots.withoutRollback, List.any_map]
  congr 1
  funext entry
  exact congrArg (· == some state) (entry.2.stateOf?_withoutRollback different)

theorem inFlight_withoutRollback (different : other ≠ uuid) :
    inFlight (snapshots.withoutRollback uuid) other = inFlight snapshots other := by
  rw [inFlight, inFlight, recordedAs_withoutRollback different,
    recordedAs_withoutRollback different, heads_withoutRollback]

theorem newest?_withoutRollback : newest? (snapshots.withoutRollback uuid) =
    (newest? snapshots).map (·.withoutRollback uuid) := by
  induction snapshots using List.reverseRecOn with
  | nil => rfl
  | append_singleton earlier last ih =>
    rw [newest?, Snapshots.withoutRollback, List.foldl_map] at ih
    rw [newest?, newest?, Snapshots.withoutRollback, List.foldl_map, List.foldl_append,
      List.foldl_append, ih, ← newest?]
    cases newest? earlier with
    | none => rfl
    | some best =>
      by_cases level : best.currentVersion ≤ last.2.currentVersion
      · simp [level]
      · simp [level]

theorem standing_withoutRollback (newest s : Snapshot) :
    standing (newest.withoutRollback uuid) (s.withoutRollback uuid) = standing newest s := by
  simp only [standing, Snapshot.committedHead_withoutRollback,
    Snapshot.currentVersion_withoutRollback, Snapshot.hasCommitted_withoutRollback]

theorem idle_withoutRollback : idle (snapshots.withoutRollback uuid) = idle snapshots := by
  rw [idle, idle, newest?_withoutRollback]
  cases newest? snapshots with
  | none => rfl
  | some newest =>
    simp only [Option.map_some, Snapshots.withoutRollback, List.find?_map, List.filter_map,
      Function.comp_def, standing_withoutRollback, Snapshot.currentVersion_withoutRollback,
      Snapshot.committedHead_withoutRollback]
    cases snapshots.find? fun entry => standing newest entry.2 == .divergent with
    | some entry => rfl
    | none =>
      cases snapshots.filter fun entry => standing newest entry.2 == .behind with
      | nil => rfl
      | cons entry rest => simp

end Analysis

variable {snapshots : Snapshots} {uuid : Uuid}

/-- The verdict does not depend on who has rolled back a change that is in flight nowhere. -/
theorem analyze_withoutRollback
    (closed : ∀ entry ∈ snapshots, entry.2.mode = .prepared → entry.2.latestUuid ≠ some uuid) :
    analyze (snapshots.withoutRollback uuid) = analyze snapshots := by
  have unnamed : uuid ∉ Analysis.preparedChanges snapshots := by
    intro listed
    obtain ⟨entry, mem, latest⟩ := List.mem_filterMap.1 (List.mem_eraseDups.1 listed)
    obtain ⟨mem, prepared⟩ := List.mem_filter.1 mem
    exact closed entry mem (by simpa using prepared) latest
  have empty : (snapshots.withoutRollback uuid).isEmpty = snapshots.isEmpty := by
    rw [Snapshots.withoutRollback, List.isEmpty_map]
  rw [analyze, analyze, empty, Analysis.preparedChanges_withoutRollback]
  split
  · rfl
  · split
    · exact Analysis.idle_withoutRollback
    · rename_i other one
      rw [one, List.mem_singleton] at unnamed
      exact Analysis.inFlight_withoutRollback (Ne.symm unnamed)
    · rfl

/-- A change that is in flight, and closed in both ways, cannot be repaired. -/
theorem analyze_of_split (committed : Analysis.recordedAs snapshots uuid .committed = true)
    (rolledBack : Analysis.recordedAs snapshots uuid .rolledBack = true)
    {entry : Address × Snapshot} (mem : entry ∈ snapshots) (prepared : entry.2.mode = .prepared)
    (latest : entry.2.latestUuid = some uuid) :
    ∃ why, analyze snapshots = .unrecoverable why := by
  have listed : uuid ∈ Analysis.preparedChanges snapshots :=
    List.mem_eraseDups.2 (List.mem_filterMap.2
      ⟨entry, List.mem_filter.2 ⟨mem, by simp [prepared]⟩, latest⟩)
  rw [analyze, if_neg (by simpa using List.ne_nil_of_mem mem)]
  split
  · rename_i none
    rw [none] at listed
    cases listed
  · rename_i other one
    rw [one, List.mem_singleton] at listed
    rw [← listed, Analysis.inFlight, committed, rolledBack]
    exact ⟨_, rfl⟩
  · exact ⟨_, rfl⟩

/-- That some nodes have committed a change and others have rolled it back makes the cluster
unrecoverable if the change is in flight. Otherwise the verdict is that on nodes which have never
prepared what they have rolled back. -/
theorem analyze_of_conflict (lived : snapshots.Lived) (conflict : snapshots.Conflict uuid) :
    ((∃ entry ∈ snapshots, entry.2.mode = .prepared ∧ entry.2.latestUuid = some uuid) →
      ∃ why, analyze snapshots = .unrecoverable why) ∧
    ((∀ entry ∈ snapshots, entry.2.mode = .prepared → entry.2.latestUuid ≠ some uuid) →
      analyze snapshots = analyze (snapshots.withoutRollback uuid)) := by
  constructor
  · rintro ⟨entry, mem, prepared, latest⟩
    exact analyze_of_split (lived.recordedAs conflict.committed)
      (lived.recordedAs conflict.rolledBack) mem prepared latest
  · intro closed
    exact (analyze_withoutRollback closed).symm

namespace Fleet

theorem Lived.report {f : Fleet} {nodes : List Address} (lived : f.Lived nodes)
    (patience : Patience) : (f.report patience nodes).responses.Lived := by
  intro entry mem
  obtain ⟨called, p, member, found⟩ := report_found mem
  obtain ⟨limits, accepted, lives⟩ := lived entry.1 called p member
  exact ⟨limits, accepted, p, lives, found⟩

/-- The three nodes after the second one has rolled back the founding that the first one has
committed. -/
def splitFounded : Fleet :=
  partlyFounded.tell ⟨"b:1"⟩ (.rollback ⟨⟨1, "east", "ops"⟩, ⟨.replicate 32 1⟩⟩)

theorem splitFounded_healthy : ∃ H d e, splitFounded.Healthy H trioNodes ∧
    H ⟨"a:1"⟩ = [d] ∧ d.uuid = ⟨.replicate 32 1⟩ ∧ d.state = .committed ∧
    H ⟨"b:1"⟩ = [e] ∧ e.uuid = ⟨.replicate 32 1⟩ ∧ e.state = .rolledBack ∧ H ⟨"c:1"⟩ = [] := by
  rw [splitFounded, tell]
  obtain ⟨H, d, healthy, shapeA, uuidA, committed, founding, new⟩ := partlyFounded_healthy
  obtain ⟨e, shapeB, uuidB, inFlight⟩ := founding ⟨"b:1"⟩ List.mem_cons_self
  have closing : (Message.rollback ⟨⟨1, "east", "ops"⟩, ⟨.replicate 32 1⟩⟩).closing? =
      some (⟨1, "east", "ops"⟩, e.uuid, .rolledBack) := by
    rw [uuidB]
    rfl
  have fence : History.messages [e] = 1 := by
    rw [History.messages_cons, if_pos inFlight]
    rfl
  have readable : Timestamp.Legible ⟨2024, 1, 1, 0, 0, 0, 0⟩ :=
    Timestamp.Storable.legible (by decide)
  obtain ⟨-, healthy⟩ := healthy.close (show (⟨"b:1"⟩ : Address) ∈ trioNodes by decide) shapeB
    inFlight closing fence none readable
  refine ⟨_, d, _, healthy, ?_, uuidA, committed, Function.update_self .., uuidB, rfl, ?_⟩
  · rw [Function.update_of_ne (by decide), shapeA]
  · rw [Function.update_of_ne (by decide), new]

theorem splitFounded_lived (nodes : List Address) : splitFounded.Lived nodes :=
  (partlyFounded_lived nodes).tell _ _

end Fleet

/-- The rollback of the founding is not noticed: the nodes that have not committed it are said to
be behind. -/
theorem analyze_of_splitFounded : ∃ snapshots : Snapshots,
    Fleet.splitFounded.report ⟨⟨1000⟩, ⟨1000⟩⟩ Fleet.trioNodes = ⟨snapshots, []⟩ ∧
    snapshots.Lived ∧ snapshots.Conflict ⟨.replicate 32 1⟩ ∧
    analyze snapshots = analyze (snapshots.withoutRollback ⟨.replicate 32 1⟩) ∧
    analyze snapshots = .lagging [⟨"b:1"⟩, ⟨"c:1"⟩] := by
  obtain ⟨H, d, e, healthy, shapeA, uuidA, committed, shapeB, uuidB, rolledBack, new⟩ :=
    Fleet.splitFounded_healthy
  obtain ⟨snapshots, shown, report⟩ := healthy.report ⟨⟨1000⟩, ⟨1000⟩⟩
  obtain ⟨s, t, v, rfl, showsA, showsB, showsC⟩ := Fleet.trio_shown shown
  rw [shapeA] at showsA
  rw [shapeB] at showsB
  rw [new] at showsC
  have lived := (Fleet.splitFounded_lived Fleet.trioNodes).report ⟨⟨1000⟩, ⟨1000⟩⟩
  rw [report] at lived
  have conflict : Snapshots.Conflict [(⟨"a:1"⟩, s), (⟨"b:1"⟩, t), (⟨"c:1"⟩, v)]
      ⟨.replicate 32 1⟩ := by
    refine ⟨⟨_, List.mem_cons_self, d.entry, ?_, uuidA, committed⟩,
      ⟨_, List.mem_cons_of_mem _ List.mem_cons_self, e.entry, ?_, uuidB, rolledBack⟩⟩
    · simp [showsA.lineage, History.entries]
    · simp [showsB.lineage, History.entries]
  obtain ⟨modeA, -, -, versionA, -⟩ := showsA.of_single uuidA committed
  obtain ⟨modeB, -, -, versionB, headB⟩ := showsB.of_single uuidB rolledBack
  obtain ⟨modeC, -, versionC, headC⟩ := showsC.of_new ⟨.replicate 32 1⟩
  obtain ⟨-, unnoticed⟩ := analyze_of_conflict lived conflict
  refine ⟨_, report, lived, conflict, unnoticed (by simp [modeA, modeB, modeC]), ?_⟩
  rw [analyze, Analysis.preparedChanges_eq_nil (by simp [modeA, modeB, modeC])]
  simp [Analysis.idle, Analysis.newest?, Analysis.standing, versionA, versionB, versionC, headB,
    headC]

end Reconfig
