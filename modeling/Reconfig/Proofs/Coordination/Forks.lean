/-
Histories that a verdict of consistency stands for.

The analysis compares the newest committed change and the number of committed changes. Nodes that
were led to different states can afterwards commit one and the same change, and are then said to
be consistent, although their histories fork below it.
-/
import Reconfig.Proofs.Coordination.Conflicts
import Reconfig.Proofs.Participant.Acceptance

namespace Reconfig

/-- Two histories, the newest change first, that share their newest changes down to one that was
made on top of different changes. -/
inductive Forked : List Uuid → List Uuid → Prop
  | here {shared x y : Uuid} {older older' : List Uuid} (apart : x ≠ y)
      (level : older.length = older'.length) : Forked (shared :: x :: older) (shared :: y :: older')
  | cons (newest : Uuid) {s t : List Uuid} (forked : Forked s t) :
      Forked (newest :: s) (newest :: t)

namespace Forked

variable {s t : List Uuid}

theorem ne (forked : Forked s t) : s ≠ t := by
  induction forked with
  | here apart =>
    intro same
    exact apart (List.cons.inj (List.cons.inj same).2).1
  | cons _ _ ih =>
    intro same
    exact ih (List.cons.inj same).2

theorem of_ne (length : s.length = t.length) (newest : s.head? = t.head?) (different : s ≠ t) :
    Forked s t := by
  induction s generalizing t with
  | nil => exact absurd (List.length_eq_zero_iff.1 length.symm).symm different
  | cons uuid s ih =>
    cases t with
    | nil => cases newest
    | cons _ t =>
      obtain rfl := Option.some.inj newest
      have length : s.length = t.length := Nat.succ.inj length
      have different : s ≠ t := fun same => different (by rw [same])
      -- the histories fork here unless they go on with the same change
      by_cases next : s.head? = t.head?
      · exact .cons uuid (ih length next different)
      · cases s with
        | nil => exact absurd (List.length_eq_zero_iff.1 length.symm).symm different
        | cons x s =>
          cases t with
          | nil => cases length
          | cons y t => exact .here (fun same => next (congrArg some same)) (Nat.succ.inj length)

end Forked

variable {snapshots : Snapshots} {version : Nat} {head : Option Uuid}

theorem Snapshots.Lived.shows (lived : snapshots.Lived) {entry : Address × Snapshot}
    (mem : entry ∈ snapshots) : ∃ h, entry.2.Shows h := by
  obtain ⟨_, _, p, lives, found⟩ := lived entry mem
  obtain ⟨h, stands⟩ := lives.stands
  exact ⟨h, stands.shows found⟩

namespace Snapshot.Shows

variable {s : Snapshot} {h : History}

theorem currentVersion_eq (shows : s.Shows h) : s.currentVersion = s.committedChain.length := by
  rw [shows.currentVersion, shows.committedChain, List.length_map, History.version]

/-- A node that holds a change open names it. -/
theorem latest_ne_none (shows : s.Shows h) (holding : s.mode = .prepared) :
    s.latestUuid ≠ none := by
  obtain ⟨d, below, rfl, -⟩ := History.mode_eq_prepared_iff.1 (shows.mode.symm.trans holding)
  rw [shows.latest]
  exact Option.some_ne_none _

end Snapshot.Shows

/-- The nodes accept changes, and have committed equally many, of which the newest is the same. -/
structure Snapshots.Even (snapshots : Snapshots) (version : Nat) (head : Option Uuid) : Prop where
  nonempty : snapshots ≠ []
  accepting : ∀ entry ∈ snapshots, entry.2.mode = .accepting
  version : ∀ entry ∈ snapshots, entry.2.committedChain.length = version
  head : ∀ entry ∈ snapshots, entry.2.committedChain.head? = head

theorem analyze_eq_consistent_iff (lived : snapshots.Lived) :
    analyze snapshots = .consistent version head ↔ snapshots.Even version head := by
  constructor
  · intro verdict
    refine ⟨?_, fun entry mem => ?_, fun entry mem => ?_,
      fun entry mem => (level_of_analyze verdict entry mem).2⟩
    · rintro rfl
      cases verdict
    · obtain ⟨h, shows⟩ := lived.shows mem
      cases mode : entry.2.mode with
      | accepting => rfl
      | prepared => exact absurd (latest_of_analyze verdict mem mode) (shows.latest_ne_none mode)
    · obtain ⟨h, shows⟩ := lived.shows mem
      rw [← shows.currentVersion_eq]
      exact (level_of_analyze verdict entry mem).1
  · intro even
    refine analyze_of_level even.nonempty fun entry mem => ?_
    obtain ⟨h, shows⟩ := lived.shows mem
    exact ⟨even.accepting entry mem, shows.currentVersion_eq.trans (even.version entry mem),
      even.head entry mem⟩

/-- The cluster is said to be consistent just where the nodes are even. Any two of the nodes have
then committed the same changes, or their histories fork. -/
theorem consistent_or_forked (lived : snapshots.Lived) :
    (analyze snapshots = .consistent version head ↔ snapshots.Even version head) ∧
    (analyze snapshots = .consistent version head → ∀ entry ∈ snapshots, ∀ other ∈ snapshots,
      entry.2.committedChain ≠ other.2.committedChain ↔
        Forked entry.2.committedChain other.2.committedChain) := by
  have even_iff : analyze snapshots = .consistent version head ↔ snapshots.Even version head :=
    analyze_eq_consistent_iff lived
  refine ⟨even_iff, fun verdict entry mem other mem' => ⟨fun different => ?_, Forked.ne⟩⟩
  have even := even_iff.1 verdict
  exact .of_ne ((even.version entry mem).trans (even.version other mem').symm)
    ((even.head entry mem).trans (even.head other mem').symm) different

/-! ## Two foundings -/

/-- The last change of both nodes. -/
def sharedChange : Change := .setting .set .cluster "k" (some "v")

namespace Participant

/-- The messages that make a node a cluster of its own, and then change it. -/
def apartMessages (uuid : Uuid) (cluster : Cluster) : List (Message × Timestamp) :=
  passMessages 0 uuid 1 (.activation cluster) ++ passMessages 2 ⟨.replicate 32 3⟩ 2 sharedChange

def apart (name : String) (uuid : Uuid) (cluster : Cluster) : Participant :=
  ((blank name).handleAll (apartMessages uuid cluster)).1

theorem storable_apartMessages (uuid : Uuid) (cluster : Cluster) :
    ∀ e ∈ apartMessages uuid cluster, e.2.Storable := by
  have storable : noon.Storable := by decide
  simp [apartMessages, passMessages, storable]

theorem apart_unhindered (name : String) {uuid : Uuid} {cluster : Cluster}
    (formed : cluster.checkStructure = .ok ()) (fresh : uuid ≠ ⟨.replicate 32 3⟩) :
    ∃ d e, (apart name uuid cluster).Unhindered ⟨none⟩ [d, e] ∧ d.uuid = ⟨.replicate 32 3⟩ ∧
      e.uuid = uuid ∧ d.state = .committed ∧ e.state = .committed ∧
      d.result = { cluster with settings := cluster.settings.insert "k" "v" } := by
  have valid : (Change.activation cluster).validate none ⟨none⟩ = .ok cluster :=
    Change.validate_eq_ok.2 ⟨rfl, formed, rfl⟩
  obtain ⟨e, first, known, committed, result⟩ :=
    takes_passMessages (h := []) rfl uuid (by simp) valid
  have topology : History.topology [e] = some cluster := by
    rw [History.topology_cons, if_pos committed, result]
  have valid' : sharedChange.validate (History.topology [e]) ⟨none⟩ =
      .ok { cluster with settings := cluster.settings.insert "k" "v" } := by
    rw [topology]
    exact Change.validate_eq_ok.2 ⟨rfl, formed, rfl⟩
  have idle : History.mode [e] = .accepting := by simp [History.mode, committed]
  obtain ⟨d, second, shared, committed', result'⟩ :=
    takes_passMessages idle ⟨.replicate 32 3⟩ (by simpa [known] using fresh) valid'
  have messages : History.messages [e] = 2 := by
    rw [History.messages_cons, if_neg (by simp [committed])]
    rfl
  have version : History.version [e] = 1 := by
    rw [History.version_cons, if_pos committed]
    rfl
  rw [messages, version] at second
  have done := (unhindered_blank name).handleAll (first.append second)
    (show 2 ≤ chainLimit by decide) (storable_apartMessages uuid cluster)
  exact ⟨d, e, done.2, shared, known, committed', committed, result'⟩

theorem apart_shown (name : String) {uuid : Uuid} {cluster : Cluster}
    (formed : cluster.checkStructure = .ok ()) (fresh : uuid ≠ ⟨.replicate 32 3⟩) :
    ∃ s, (apart name uuid cluster).discover = .ok s ∧ s.mode = .accepting ∧
      s.committedChain = [⟨.replicate 32 3⟩, uuid] ∧
      (apart name uuid cluster).committedTopology =
        .ok (some { cluster with settings := cluster.settings.insert "k" "v" }) := by
  obtain ⟨d, e, ⟨⟨_, settled⟩, -⟩, shared, known, committed, committed', result⟩ :=
    apart_unhindered name formed fresh
  have short : [d, e].length ≤ chainLimit := show 2 ≤ chainLimit by decide
  obtain ⟨s, found⟩ := settled.discover_eq_ok short
  have shows := Stands.shows ⟨_, _, settled⟩ found
  refine ⟨s, found, ?_, ?_, ?_⟩
  · rw [shows.mode]
    simp [History.mode, committed]
  · simp [shows.committedChain, History.committed, committed, committed', shared, known]
  · rw [settled.committedTopology_eq, if_pos short, History.topology_cons, if_pos committed, result]

theorem lived_apart (name : String) (uuid : Uuid) (cluster : Cluster) :
    ∃ accepted, Lived ⟨none⟩ accepted (apart name uuid cluster) := by
  have started : Lived ⟨none⟩ [] (blank name) := .started .memory rfl (start_blank name)
  exact started.handleAll (storable_apartMessages uuid cluster)

end Participant

/-- Like the cluster that is founded elsewhere, but for its name. -/
def otherCluster : Cluster := { Participant.foundedCluster with name := "d" }

/-- Two nodes that were founded apart are said to be consistent after one common change, and have
different topologies. -/
theorem apart_consistent_or_forked : ∃ (p q : Participant) (s t : Snapshot),
    p.discover = .ok s ∧ q.discover = .ok t ∧
    Snapshots.Lived [(⟨"a:1"⟩, s), (⟨"b:1"⟩, t)] ∧
    analyze [(⟨"a:1"⟩, s), (⟨"b:1"⟩, t)] = .consistent 2 (some ⟨.replicate 32 3⟩) ∧
    s.committedChain = [⟨.replicate 32 3⟩, ⟨.replicate 32 1⟩] ∧
    t.committedChain = [⟨.replicate 32 3⟩, ⟨.replicate 32 2⟩] ∧
    Forked s.committedChain t.committedChain ∧ p.committedTopology ≠ q.committedTopology := by
  have formed : Participant.foundedCluster.checkStructure = .ok () := rfl
  have formed' : otherCluster.checkStructure = .ok () := rfl
  obtain ⟨s, shownA, modeA, chainA, topologyA⟩ := Participant.apart_shown "a" formed
    (show (⟨.replicate 32 1⟩ : Uuid) ≠ ⟨.replicate 32 3⟩ by decide)
  obtain ⟨t, shownB, modeB, chainB, topologyB⟩ := Participant.apart_shown "b" formed'
    (show (⟨.replicate 32 2⟩ : Uuid) ≠ ⟨.replicate 32 3⟩ by decide)
  obtain ⟨_, livedA⟩ := Participant.lived_apart "a" ⟨.replicate 32 1⟩ Participant.foundedCluster
  obtain ⟨_, livedB⟩ := Participant.lived_apart "b" ⟨.replicate 32 2⟩ otherCluster
  have lived : Snapshots.Lived [(⟨"a:1"⟩, s), (⟨"b:1"⟩, t)] := by
    intro entry mem
    rcases List.mem_pair.1 mem with rfl | rfl
    · exact ⟨_, _, _, livedA, shownA⟩
    · exact ⟨_, _, _, livedB, shownB⟩
  have even : Snapshots.Even [(⟨"a:1"⟩, s), (⟨"b:1"⟩, t)] 2 (some ⟨.replicate 32 3⟩) := by
    constructor <;> simp [modeA, modeB, chainA, chainB]
  obtain ⟨verdict_iff, forks⟩ := consistent_or_forked lived
  have verdict := verdict_iff.2 even
  have different : s.committedChain ≠ t.committedChain := by
    rw [chainA, chainB]
    decide
  have forked : Forked s.committedChain t.committedChain :=
    (forks verdict (⟨"a:1"⟩, s) (by simp) (⟨"b:1"⟩, t) (by simp)).1 different
  refine ⟨_, _, s, t, shownA, shownB, lived, verdict, chainA, chainB, forked, ?_⟩
  rw [topologyA, topologyB]
  intro same
  have names := congrArg Cluster.name (Option.some.inj (Except.ok.inj same))
  exact absurd names (by decide)

end Reconfig
