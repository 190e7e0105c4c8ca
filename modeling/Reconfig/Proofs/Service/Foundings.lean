/-
Nodes that activate themselves with one topology.

Each of them makes a change of its own, under an identity of its own. So each is a cluster
that is in order, as long as it is looked at alone. Nodes that are looked at together have
no committed change in common, and a coordinator does not touch them.
-/
import Reconfig.Proofs.Coordination.Operation
import Reconfig.Proofs.Service.FirstStart

namespace Reconfig

/-! ## Histories without a common change -/

theorem Analysis.idle_of_apart {first : Address × Snapshot} {rest : Snapshots} {version : Nat}
    (level : ∀ entry ∈ first :: rest, entry.2.currentVersion = version) (more : rest ≠ [])
    (apart : ((first :: rest).map (·.2.committedHead)).Nodup) :
    idle (first :: rest) = .unrecoverable (.divergentHistory first.1 version) := by
  obtain ⟨earlier, last, rfl⟩ : ∃ earlier last, rest = earlier ++ [last] :=
    ⟨_, _, (List.dropLast_append_getLast more).symm⟩
  obtain ⟨entry, mem, chosen⟩ := newest?_eq_some (List.cons_ne_nil first earlier)
  have same : ∀ entry ∈ first :: earlier, entry.2.currentVersion = version :=
    fun entry mem => level entry (List.mem_append_left [last] mem)
  have lastVersion := level last (by simp)
  -- of nodes at one version the last one counts as the newest
  have newest : newest? (first :: (earlier ++ [last])) = some last.2 := by
    rw [← List.cons_append, newest?_concat, chosen]
    exact if_pos (Nat.le_of_eq ((same entry mem).trans lastVersion.symm))
  have other : first.2.committedHead ≠ last.2.committedHead := by
    rw [List.map_cons, List.nodup_cons] at apart
    exact fun equal => apart.1 (by rw [equal]; simp)
  have divergent : standing last.2 first.2 = .divergent := by
    rw [standing, if_neg fun level => other level.1, if_neg fun behind => ?_]
    have := behind.2
    rw [lastVersion, level first List.mem_cons_self] at this
    exact Nat.lt_irrefl _ this
  have found : (first :: (earlier ++ [last])).find? (fun entry =>
      standing last.2 entry.2 == .divergent) = some first := by
    rw [List.find?_cons_of_pos]
    rw [divergent]
    rfl
  simp only [idle, newest, found, lastVersion]

theorem analyze_of_apart {first : Address × Snapshot} {rest : Snapshots} {version : Nat}
    (level : ∀ entry ∈ first :: rest,
      entry.2.mode = .accepting ∧ entry.2.currentVersion = version) (more : rest ≠ [])
    (apart : ((first :: rest).map (·.2.committedHead)).Nodup) :
    analyze (first :: rest) = .unrecoverable (.divergentHistory first.1 version) := by
  rw [analyze, if_neg (by simp),
    Analysis.preparedChanges_eq_nil fun entry mem => (level entry mem).1]
  exact Analysis.idle_of_apart (fun entry mem => (level entry mem).2) more apart

/-- Nodes that nobody can bring together are not changed. -/
theorem Report.readyVersion_of_unrecoverable {snapshots : Snapshots} {why : Divergence}
    (accepting : ∀ entry ∈ snapshots, entry.2.mode = .accepting)
    (verdict : analyze snapshots = .unrecoverable why) :
    (Report.mk snapshots []).readyVersion = .error (.unrecoverable why.text) := by
  have idle : snapshots.filter (·.2.mode != .accepting) = [] := by
    rw [List.filter_eq_nil_iff]
    intro entry mem
    rw [accepting entry mem]
    decide
  have state : (Report.mk snapshots []).state = .unrecoverable why := verdict
  simp [readyVersion, allReachable, idle, state]

theorem changePass_of_unready {f : Fleet} {nodes : List (Address × LogicalState)} {e : Error}
    {patience : Patience} {clock : Clock} (asked : passivesFirst nodes ≠ [])
    (unready : ((Pass.check (passivesFirst nodes)).run patience clock f).2.readyVersion = .error e)
    (sender : Sender) (uuid : Uuid) (change : Change) :
    (changePass sender uuid nodes change).run patience clock f =
      ((f.discoverAll (some patience.discovery) (passivesFirst nodes)).1, .error e) := by
  have report : (Report.ofAnswers (f.discoverAll (some patience.discovery)
      (passivesFirst nodes)).2).readyVersion = .error e := unready
  have some : (passivesFirst nodes).isEmpty = false := by simpa using asked
  unfold changePass
  dsimp only
  rw [some, if_neg Bool.false_ne_true, Pass.run_bind]
  simp only [Pass.check, Pass.run, report, Outcome.error_bind, Pass.run_pure]

/-! ## Starts side by side -/

/-- A node that is started for the first time, at the address that it will have. -/
structure SelfStart where
  node : Address
  options : StartupOptions
  disk : Disk
  now : Timestamp

namespace SelfStart

def outcome (s : SelfStart) : Except Error (StartupStrategy × Participant) :=
  (startNode StartupStrategy.all s.options s.disk s.now).2

/-- What the node shows once it is started. -/
def shown (s : SelfStart) : Except Error (Address × Snapshot) := do
  let (_, p) ← s.outcome
  pure (s.node, ← p.discover)

/-- The node is new and is to activate itself with the topology, which is valid and names it. -/
structure Founds (s : SelfStart) (c : Cluster) : Prop where
  blank : s.disk.repository = none
  auto : s.options.autoActivate = true
  named : StartupStrategy.topology s.options s.disk = .ok c
  formed : c.checkStructure = .ok ()
  afforded : c.checkCapacity s.options.limits = .ok ()
  storable : s.now.Storable
  small : ∀ w ∈ s.options.writes c s.now, w.toJson.bytes.length ≤ Frame.payloadLimit

variable {c : Cluster} {s : SelfStart} {starts : List SelfStart}

theorem Founds.outcome_eq (founds : s.Founds c) :
    s.outcome = .ok (.configFile, s.options.activated c s.now) := by
  have activated := StartupOptions.activate_eq_activated founds.formed founds.afforded
    founds.storable founds.small
  rw [outcome, startNode_new founds.blank founds.auto founds.named, activated]
  rfl

theorem Founds.shows (founds : s.Founds c) : ∃ snapshot,
    (s.options.activated c s.now).discover = .ok snapshot ∧ s.shown = .ok (s.node, snapshot) ∧
      snapshot.mode = .accepting ∧ snapshot.currentVersion = 1 ∧
        snapshot.committedHead = some s.options.uuid := by
  obtain ⟨snapshot, discovered, shows, -⟩ := Participant.activated_shows founds.formed
    founds.afforded founds.storable founds.small
  refine ⟨snapshot, discovered, ?_, shows.mode, shows.currentVersion, shows.committedHead⟩
  simp only [shown, founds.outcome_eq, Outcome.ok_bind, discovered, Outcome.pure_eq_ok]

/-- What the nodes show, in the order in which they are started. -/
theorem exists_shown (founds : ∀ s ∈ starts, s.Founds c) : ∃ snapshots : Snapshots,
    starts.mapM shown = .ok snapshots ∧ snapshots.map (·.1) = starts.map (·.node) ∧
      snapshots.map (·.2.committedHead) = starts.map (some ·.options.uuid) ∧
      ∀ entry ∈ snapshots, entry.2.mode = .accepting ∧ entry.2.currentVersion = 1 ∧
        ∃ s ∈ starts, entry.1 = s.node ∧
          (s.options.activated c s.now).discover = .ok entry.2 := by
  induction starts with
  | nil => exact ⟨[], rfl, rfl, rfl, List.forall_mem_nil _⟩
  | cons s rest ih =>
    obtain ⟨here, others⟩ := List.forall_mem_cons.1 founds
    obtain ⟨snapshot, discovered, shown, mode, version, head⟩ := here.shows
    obtain ⟨snapshots, more, nodes, heads, each⟩ := ih others
    refine ⟨(s.node, snapshot) :: snapshots, ?_, by simp [nodes], by simp [heads, head], ?_⟩
    · simp only [List.mapM_cons, shown, more, Outcome.ok_bind, Outcome.pure_eq_ok]
    · refine List.forall_mem_cons.2
        ⟨⟨mode, version, s, List.mem_cons_self, rfl, discovered⟩, fun entry mem => ?_⟩
      obtain ⟨mode, version, s, mem, rest⟩ := each entry mem
      exact ⟨mode, version, s, List.mem_cons_of_mem _ mem, rest⟩

/-- Nodes that made one change each, and not the same one, have nothing in common. -/
theorem analyze_shown {snapshots : Snapshots} {first : SelfStart} {rest : List SelfStart}
    (listed : snapshots.map (·.1) = (first :: rest).map (·.node))
    (heads : snapshots.map (·.2.committedHead) = (first :: rest).map (some ·.options.uuid))
    (level : ∀ entry ∈ snapshots, entry.2.mode = .accepting ∧ entry.2.currentVersion = 1)
    (more : rest ≠ []) (apart : ((first :: rest).map (·.options.uuid)).Nodup) :
    analyze snapshots = .unrecoverable (.divergentHistory first.node 1) := by
  have unlike : (snapshots.map (·.2.committedHead)).Nodup := by
    rw [heads, List.Nodup, List.pairwise_map]
    exact (List.pairwise_map.1 apart).imp fun other same => other (Option.some.inj same)
  obtain ⟨entry, others, rfl, node, same⟩ := List.map_eq_cons_iff.1 listed
  have several : others ≠ [] := by
    rintro rfl
    exact more (List.map_eq_nil_iff.1 same.symm)
  rw [analyze_of_apart level several unlike, show entry.1 = first.node from node]

/-- Nodes that activate themselves with one topology are each in order alone. Together they are
beyond repair, and a change of them is refused before any of them is asked to prepare it. -/
theorem unrecoverable {c : Cluster} {starts : List SelfStart} (several : 2 ≤ starts.length)
    (founds : ∀ s ∈ starts, s.Founds c) (apart : (starts.map (·.options.uuid)).Nodup) :
    (∀ s ∈ starts, ∃ p snapshot, s.outcome = .ok (.configFile, p) ∧ p.FoundedOn c ∧
      s.shown = .ok (s.node, snapshot) ∧
      analyze [(s.node, snapshot)] = .consistent 1 (some s.options.uuid)) ∧
    ∃ snapshots first, starts.mapM shown = .ok snapshots ∧ starts.head? = some first ∧
      analyze snapshots = .unrecoverable (.divergentHistory first.node 1) ∧
      ∀ (f : Fleet) (nodes : List (Address × LogicalState)), f.faults = [] →
        passivesFirst nodes = starts.map (·.node) →
        (∀ s ∈ starts, ∃ p, s.outcome = .ok (.configFile, p) ∧ f.member? s.node = some p) →
        ∀ sender uuid change patience clock, ∃ g,
          (changePass sender uuid nodes change).run patience clock f =
            (g, .error (.unrecoverable (Divergence.divergentHistory first.node 1).text)) ∧
          ∀ node, g.member? node = f.member? node := by
  constructor
  · intro s mem
    have found := founds s mem
    obtain ⟨snapshot, -, shown, level⟩ := found.shows
    exact ⟨_, snapshot, found.outcome_eq, Participant.foundedOn_activated found.formed
      found.afforded found.storable found.small, shown,
      analyze_of_level (List.cons_ne_nil _ _) (List.forall_mem_singleton.2 level)⟩
  · obtain ⟨first, rest, rfl⟩ := List.exists_cons_of_length_pos (by omega : 0 < starts.length)
    obtain ⟨snapshots, shown, listed, heads, each⟩ := exists_shown founds
    have level : ∀ entry ∈ snapshots, entry.2.mode = .accepting ∧ entry.2.currentVersion = 1 :=
      fun entry mem => ⟨(each entry mem).1, (each entry mem).2.1⟩
    have verdict := analyze_shown listed heads level
      (List.ne_nil_of_length_pos (Nat.lt_of_succ_le (Nat.le_of_succ_le_succ several))) apart
    refine ⟨snapshots, first, shown, rfl, verdict, ?_⟩
    intro f nodes faultless order members sender uuid change patience clock
    have found : ∀ entry ∈ snapshots, ∃ p, f.member? entry.1 = some p ∧
        p.discover = .ok entry.2 := by
      intro entry mem
      obtain ⟨-, -, s, started, node, discovered⟩ := each entry mem
      obtain ⟨p, outcome, member⟩ := members s started
      rw [(founds s started).outcome_eq] at outcome
      cases outcome
      exact ⟨_, by rw [node, member], discovered⟩
    have asked : passivesFirst nodes ≠ [] := by simp [order]
    have report := Fleet.check_of_found faultless found patience clock
    rw [listed, ← order] at report
    refine ⟨_, changePass_of_unready asked ?_ sender uuid change,
      f.member?_discoverAll (some patience.discovery) (passivesFirst nodes)⟩
    rw [report]
    exact Report.readyVersion_of_unrecoverable (fun entry mem => (level entry mem).1) verdict

/-! ## Two nodes that found one cluster -/

open Fleet (pairCluster operatorRun)

def pairFile : Settings.Files := Dict.ofList [("cluster.json",
  "\x7b\"name\":\"c\",\"stripes\":[\x7b\"name\":\"s\",\"nodes\":[" ++
    "\x7b\"name\":\"a\",\"hostname\":\"a\",\"port\":1\x7d," ++
    "\x7b\"name\":\"b\",\"hostname\":\"b\",\"port\":1\x7d]\x7d]\x7d")]

/-- A node that takes its topology from the file. -/
def ofPairFile (node : Address) (name : String) (uuid : Uuid) : SelfStart where
  node
  options := ⟨name, ⟨none⟩, some "cluster", true, ⟨"east", "ops"⟩, uuid⟩
  disk := ⟨pairFile, none⟩
  now := Participant.noon

def first : SelfStart := ofPairFile ⟨"a:1"⟩ "a" ⟨.replicate 32 1⟩

def second : SelfStart := ofPairFile ⟨"b:1"⟩ "b" ⟨.replicate 32 2⟩

theorem ofFile?_pairFile : Cluster.ofFile? pairFile "cluster" = some pairCluster := by
  decide +kernel

theorem ofPairFile_founds {node : Address} {name : String} {uuid : Uuid}
    (inside : pairCluster.nodes.any (·.name == name) = true)
    (light : ∀ w ∈ (ofPairFile node name uuid).options.measured pairCluster Participant.noon,
      w.toJson.weight ≤ 9000) : (ofPairFile node name uuid).Founds pairCluster where
  blank := rfl
  auto := rfl
  named := StartupStrategy.topology_eq rfl ofFile?_pairFile inside
  formed := by decide
  afforded := rfl
  storable := (by decide : Participant.noon.Storable)
  small w mem := Nat.le_trans (StartupOptions.length_writes_le light w mem) (by decide)

theorem pair_founds : ∀ s ∈ [first, second], s.Founds pairCluster :=
  List.forall_mem_cons.2 ⟨ofPairFile_founds (by decide) (by decide +kernel),
    List.forall_mem_singleton.2 (ofPairFile_founds (by decide) (by decide +kernel))⟩

/-- The file is valid and names both nodes, but what they show is not the state of one cluster. -/
theorem pair_inconsistent : (∀ s ∈ [first, second], s.Founds pairCluster) ∧
    first.node ≠ second.node ∧ first.options.uuid ≠ second.options.uuid ∧
    ∃ snapshots, [first, second].mapM shown = .ok snapshots ∧
      ∀ head, analyze snapshots ≠ .consistent 1 head := by
  obtain ⟨snapshots, shown, listed, heads, each⟩ := exists_shown pair_founds
  refine ⟨pair_founds, by decide, by decide, snapshots, shown, fun head => ?_⟩
  rw [analyze_shown listed heads (fun entry mem => ⟨(each entry mem).1, (each entry mem).2.1⟩)
    (List.cons_ne_nil _ _) (by decide)]
  nofun

/-- Both nodes once they are started, and nothing that keeps a coordinator from them. -/
def pairFleet : Fleet :=
  Fleet.empty.addNode first.node (first.options.activated pairCluster first.now) .passive
    |>.addNode second.node (second.options.activated pairCluster second.now) .active

/-- An operator cannot change the two nodes. -/
theorem pair_unrecoverable :
    (∃ snapshots, [first, second].mapM shown = .ok snapshots ∧
      analyze snapshots = .unrecoverable (.divergentHistory first.node 1)) ∧
    ∀ uuid change, ∃ g, operatorRun uuid ChangePass.founders change pairFleet =
      (g, .error (.unrecoverable (Divergence.divergentHistory first.node 1).text)) := by
  obtain ⟨-, snapshots, earliest, shown, head, verdict, refused⟩ :=
    unrecoverable (by decide : 2 ≤ [first, second].length) pair_founds (by decide)
  cases head
  have members : ∀ s ∈ [first, second], ∃ p, s.outcome = .ok (.configFile, p) ∧
      pairFleet.member? s.node = some p := by
    have founds := pair_founds
    simp only [List.forall_mem_cons] at founds ⊢
    exact ⟨⟨_, founds.1.outcome_eq, rfl⟩, ⟨_, founds.2.1.outcome_eq, rfl⟩, nofun⟩
  refine ⟨⟨snapshots, shown, verdict⟩, fun uuid change => ?_⟩
  obtain ⟨g, run, -⟩ := refused pairFleet ChangePass.founders rfl rfl members ⟨"east", "ops"⟩ uuid
    change ⟨⟨1000⟩, ⟨1000⟩⟩ .everySecond
  exact ⟨g, run⟩

end SelfStart
end Reconfig
