/-
What the verdict on idle nodes says of their committed changes.

The analysis never compares whole histories. It looks for the newest committed change of a node
among those of a node at the newest version, and compares how many there are. Where two nodes that
have committed one change have committed the same changes before it, this decides whether the
history of the one is the older end of the history of the other.
-/
import Reconfig.Proofs.Coordination.Operation

namespace Reconfig

/-! ## Histories that agree below what they share -/

/-- Below a change that both have, the histories are the same. -/
def Compatible (s t : List Uuid) : Prop :=
  ∀ uuid newer older newer' older', s = newer ++ uuid :: older → t = newer' ++ uuid :: older' →
    older = older'

namespace Compatible

variable {s t : List Uuid}

/-- The newest change decides whether one history is the older end of the other. -/
theorem suffix_iff (compatible : Compatible s t) : s <:+ t ↔ s.head?.all (t.contains ·) = true := by
  cases s with
  | nil => simp
  | cons uuid older =>
    simp only [List.head?_cons, Option.all_some, List.contains_iff_mem]
    constructor
    · intro suffix
      exact suffix.subset List.mem_cons_self
    · intro shared
      obtain ⟨newer, older', split⟩ := List.append_of_mem shared
      obtain rfl := compatible uuid [] older newer older' rfl split
      exact ⟨newer, split.symm⟩

/-- Histories with the same newest change and the same length are the same. -/
theorem eq_iff (compatible : Compatible s t) : s = t ↔ s.head? = t.head? ∧ s.length = t.length := by
  refine ⟨fun same => by rw [same]; exact ⟨rfl, rfl⟩, fun ⟨head, length⟩ => ?_⟩
  have suffix : s <:+ t := compatible.suffix_iff.2 (by
    rw [head]
    cases t <;> simp)
  exact suffix.eq_of_length length

/-- The older end of a history is compatible with the history. -/
theorem of_suffix (suffix : s <:+ t) (distinct : t.Nodup) : Compatible s t := by
  rintro uuid newer older newer' older' rfl split
  obtain ⟨newest, rfl⟩ := suffix
  rw [← List.append_assoc] at split distinct
  obtain ⟨fresh, -⟩ := List.nodup_cons.1 (List.nodup_middle.1 distinct)
  rw [List.mem_append, not_or] at fresh
  exact ((List.append_cons_inj_of_notMem fresh.1 fresh.2).1 split).2.2

theorem symm (compatible : Compatible s t) : Compatible t s :=
  fun uuid newer older newer' older' split split' =>
    (compatible uuid newer' older' newer older split' split).symm

end Compatible

namespace Snapshots

/-- The histories of the nodes are compatible with each other. -/
def Compatible (snapshots : Snapshots) : Prop :=
  ∀ entry ∈ snapshots, ∀ other ∈ snapshots,
    Reconfig.Compatible entry.2.committedChain other.2.committedChain

/-- All nodes have committed these changes. -/
def Alike (snapshots : Snapshots) (chain : List Uuid) : Prop :=
  ∀ entry ∈ snapshots, entry.2.committedChain = chain

/-- Some node has committed these changes, and none has committed more. -/
structure Longest (snapshots : Snapshots) (chain : List Uuid) : Prop where
  reached : ∃ entry ∈ snapshots, entry.2.committedChain = chain
  bound : ∀ entry ∈ snapshots, entry.2.committedChain.length ≤ chain.length

/-- The history of every node is the older end of the longest one. -/
structure Nested (snapshots : Snapshots) (chain : List Uuid) : Prop where
  longest : snapshots.Longest chain
  suffix : ∀ entry ∈ snapshots, entry.2.committedChain <:+ chain

/-- The nodes that have committed fewer changes than these. -/
def shorter (snapshots : Snapshots) (chain : List Uuid) : List Address :=
  (snapshots.filter (·.2.committedChain.length < chain.length)).map (·.1)

variable {snapshots shuffled : Snapshots} {chain chain' : List Uuid}

theorem Nested.unique (nested : snapshots.Nested chain) (longest : snapshots.Longest chain') :
    chain' = chain := by
  obtain ⟨entry, mem, reached⟩ := nested.longest.reached
  obtain ⟨other, mem', rfl⟩ := longest.reached
  refine (nested.suffix other mem').eq_of_length_le ?_
  rw [← reached]
  exact longest.bound entry mem

theorem Alike.nested (alike : snapshots.Alike chain) (nonempty : snapshots ≠ []) :
    snapshots.Nested chain := by
  obtain ⟨entry, mem⟩ := List.exists_mem_of_ne_nil _ nonempty
  refine ⟨⟨⟨entry, mem, alike entry mem⟩, fun other mem' => ?_⟩, fun other mem' => ?_⟩
  · exact Nat.le_of_eq (congrArg List.length (alike other mem'))
  · have same := alike other mem'
    exact same ▸ List.suffix_rfl

theorem Alike.perm (alike : snapshots.Alike chain) (perm : snapshots.Perm shuffled) :
    shuffled.Alike chain :=
  fun entry mem => alike entry (perm.mem_iff.2 mem)

theorem Nested.perm (nested : snapshots.Nested chain) (perm : snapshots.Perm shuffled) :
    shuffled.Nested chain := by
  obtain ⟨⟨⟨entry, mem, reached⟩, bound⟩, suffix⟩ := nested
  have listed : ∀ other ∈ shuffled, other ∈ snapshots := fun other => perm.mem_iff.2
  exact ⟨⟨⟨entry, perm.mem_iff.1 mem, reached⟩, fun other mem' => bound other (listed other mem')⟩,
    fun other mem' => suffix other (listed other mem')⟩

end Snapshots

/-! ## How one node stands to another -/

namespace Analysis

variable {s newest : Snapshot}

/-- A node stands to one that has committed at least as many changes as its history does. -/
theorem standing_eq (versionS : s.currentVersion = s.committedChain.length)
    (versionN : newest.currentVersion = newest.committedChain.length)
    (compatible : Compatible s.committedChain newest.committedChain)
    (bound : s.committedChain.length ≤ newest.committedChain.length) :
    standing newest s =
      if s.committedChain = newest.committedChain then .level
      else if s.committedChain <:+ newest.committedChain then .behind
      else .divergent := by
  have level : s.committedHead = newest.committedHead ∧ s.currentVersion = newest.currentVersion ↔
      s.committedChain = newest.committedChain := by
    rw [versionS, versionN, compatible.eq_iff, Snapshot.committedHead, Snapshot.committedHead]
  by_cases same : s.committedChain = newest.committedChain
  · rw [standing, if_pos (level.2 same), if_pos same]
  · have behind : s.committedHead.all (newest.hasCommitted ·) ∧
        s.currentVersion < newest.currentVersion ↔
          s.committedChain <:+ newest.committedChain := by
      rw [versionS, versionN, compatible.suffix_iff]
      refine ⟨And.left, fun shared => ⟨shared, Nat.lt_of_le_of_ne bound fun length => same ?_⟩⟩
      exact (compatible.suffix_iff.2 shared).eq_of_length length
    rw [standing, if_neg (mt level.1 same), if_neg same]
    simp only [behind]

/-- A node diverges just if its history is no older end of the newest one. -/
theorem standing_eq_divergent_iff (versionS : s.currentVersion = s.committedChain.length)
    (versionN : newest.currentVersion = newest.committedChain.length)
    (compatible : Compatible s.committedChain newest.committedChain)
    (bound : s.committedChain.length ≤ newest.committedChain.length) :
    standing newest s = .divergent ↔ ¬ s.committedChain <:+ newest.committedChain := by
  rw [standing_eq versionS versionN compatible bound]
  by_cases same : s.committedChain = newest.committedChain
  · simp [same]
  · by_cases older : s.committedChain <:+ newest.committedChain
    · simp [same, older]
    · simp [same, older]

/-- A node whose history is an older end of the newest one is behind just if something is
missing. -/
theorem standing_eq_behind_iff (versionS : s.currentVersion = s.committedChain.length)
    (versionN : newest.currentVersion = newest.committedChain.length)
    (compatible : Compatible s.committedChain newest.committedChain)
    (older : s.committedChain <:+ newest.committedChain) :
    standing newest s = .behind ↔ s.committedChain.length < newest.committedChain.length := by
  rw [standing_eq versionS versionN compatible older.length_le, if_pos older]
  by_cases same : s.committedChain = newest.committedChain
  · simp [same]
  · have shorter := Nat.lt_of_le_of_ne older.length_le fun length =>
      same (older.eq_of_length length)
    simp [same, shorter]

end Analysis

/-! ## The verdict -/

namespace Snapshots

/-- How the committed changes of idle nodes stand to each other, with the verdict for it. -/
inductive Classified (snapshots : Snapshots) : ClusterState → Prop
  | consistent {chain : List Uuid} (alike : snapshots.Alike chain) :
      Classified snapshots (.consistent chain.length chain.head?)
  | lagging {chain : List Uuid} (nested : snapshots.Nested chain)
      (uneven : ¬ ∃ chain, snapshots.Alike chain) :
      Classified snapshots (.lagging (snapshots.shorter chain))
  | unrecoverable (why : Divergence) (apart : ¬ ∃ chain, snapshots.Nested chain) :
      Classified snapshots (.unrecoverable why)

variable {snapshots : Snapshots}

theorem analyze_classified (nonempty : snapshots ≠ [])
    (accepting : ∀ entry ∈ snapshots, entry.2.mode = .accepting) (lived : snapshots.Lived)
    (compatible : snapshots.Compatible) : snapshots.Classified (analyze snapshots) := by
  have version : ∀ entry ∈ snapshots, entry.2.currentVersion = entry.2.committedChain.length := by
    intro entry mem
    obtain ⟨h, shows⟩ := lived.shows mem
    exact shows.currentVersion_eq
  obtain ⟨newest, mem, chosen⟩ := Analysis.newest?_eq_some nonempty
  have bound : ∀ entry ∈ snapshots,
      entry.2.committedChain.length ≤ newest.2.committedChain.length := by
    intro entry mem'
    rw [← version entry mem', ← version newest mem]
    exact Analysis.currentVersion_le_newest chosen entry mem'
  have longest : snapshots.Longest newest.2.committedChain := ⟨⟨newest, mem, rfl⟩, bound⟩
  have divergent : ∀ entry ∈ snapshots, Analysis.standing newest.2 entry.2 = .divergent ↔
      ¬ entry.2.committedChain <:+ newest.2.committedChain := fun entry mem' =>
    Analysis.standing_eq_divergent_iff (version entry mem') (version newest mem)
      (compatible entry mem' newest mem) (bound entry mem')
  rw [analyze, if_neg (by simpa using nonempty), Analysis.preparedChanges_eq_nil accepting]
  simp only [Analysis.idle, chosen]
  split
  · rename_i node s found
    have mem' := List.mem_of_find?_eq_some found
    refine .unrecoverable _ ?_
    rintro ⟨chain, nested⟩
    have suffix := nested.suffix _ mem'
    rw [← nested.unique longest] at suffix
    exact (divergent _ mem').1 (by simpa using List.find?_some found) suffix
  · rename_i noneDivergent
    have suffix : ∀ entry ∈ snapshots,
        entry.2.committedChain <:+ newest.2.committedChain := by
      intro entry mem'
      by_contra apart
      have found := (divergent entry mem').2 apart
      exact List.find?_eq_none.1 noneDivergent entry mem' (by simpa using found)
    have behind : (snapshots.filter fun entry =>
        Analysis.standing newest.2 entry.2 == .behind) =
          snapshots.filter (·.2.committedChain.length < newest.2.committedChain.length) := by
      refine List.filter_congr fun entry mem' => ?_
      rw [Bool.eq_iff_iff, beq_iff_eq, decide_eq_true_iff]
      exact Analysis.standing_eq_behind_iff (version entry mem') (version newest mem)
        (compatible entry mem' newest mem) (suffix entry mem')
    rw [behind]
    split
    · rename_i none
      rw [version newest mem]
      refine .consistent fun entry mem' => (suffix entry mem').eq_of_length_le ?_
      simpa using List.filter_eq_nil_iff.1 none entry mem'
    · rename_i some
      refine .lagging ⟨longest, suffix⟩ ?_
      rintro ⟨chain, alike⟩
      refine some (List.filter_eq_nil_iff.2 fun entry mem' => ?_)
      simp [alike entry mem', alike newest mem]

end Snapshots

/-- The verdicts are the same, but for the order of the nodes that are behind and for the reason
why no repair is possible. -/
inductive ClusterState.Resembles : ClusterState → ClusterState → Prop
  | same (verdict : ClusterState) : Resembles verdict verdict
  | lagging {behind behind' : List Address} (perm : behind.Perm behind') :
      Resembles (.lagging behind) (.lagging behind')
  | unrecoverable (why why' : Divergence) : Resembles (.unrecoverable why) (.unrecoverable why')

namespace Snapshots

variable {snapshots shuffled : Snapshots} {verdict verdict' : ClusterState}

theorem Classified.perm (classified : snapshots.Classified verdict) (nonempty : snapshots ≠ [])
    (perm : snapshots.Perm shuffled) (classified' : shuffled.Classified verdict') :
    verdict.Resembles verdict' := by
  have nonempty' : shuffled ≠ [] := fun none => nonempty (none ▸ perm).eq_nil
  cases classified with
  | consistent alike =>
    cases classified' with
    | consistent alike' =>
      rw [(alike.nested nonempty).unique (alike'.perm perm.symm |>.nested nonempty).longest]
      exact .same _
    | lagging nested uneven => exact absurd ⟨_, alike.perm perm⟩ uneven
    | unrecoverable _ apart => exact absurd ⟨_, (alike.perm perm).nested nonempty'⟩ apart
  | lagging nested uneven =>
    cases classified' with
    | consistent alike' => exact absurd ⟨_, alike'.perm perm.symm⟩ uneven
    | lagging nested' =>
      rw [nested.unique (nested'.perm perm.symm).longest]
      exact .lagging ((perm.filter _).map _)
    | unrecoverable _ apart => exact absurd ⟨_, nested.perm perm⟩ apart
  | unrecoverable why apart =>
    cases classified' with
    | consistent alike' => exact absurd ⟨_, (alike'.perm perm.symm).nested nonempty⟩ apart
    | lagging nested' => exact absurd ⟨_, nested'.perm perm.symm⟩ apart
    | unrecoverable why' => exact .unrecoverable why why'

theorem Classified.consistent_iff (classified : snapshots.Classified verdict)
    (nonempty : snapshots ≠ []) {version : Nat} {head : Option Uuid} :
    verdict = .consistent version head ↔
      ∃ chain, snapshots.Alike chain ∧ version = chain.length ∧ head = chain.head? := by
  constructor
  · rintro rfl
    cases classified with
    | consistent alike => exact ⟨_, alike, rfl, rfl⟩
  · rintro ⟨chain, alike, rfl, rfl⟩
    cases classified with
    | consistent alike' =>
      rw [(alike.nested nonempty).unique (alike'.nested nonempty).longest]
    | lagging _ uneven => exact absurd ⟨_, alike⟩ uneven
    | unrecoverable _ apart => exact absurd ⟨_, alike.nested nonempty⟩ apart

theorem Classified.lagging_iff (classified : snapshots.Classified verdict)
    {behind : List Address} : verdict = .lagging behind ↔
      ∃ chain, snapshots.Nested chain ∧ (¬ ∃ chain, snapshots.Alike chain) ∧
        behind = snapshots.shorter chain := by
  constructor
  · rintro rfl
    cases classified with
    | lagging nested uneven => exact ⟨_, nested, uneven, rfl⟩
  · rintro ⟨chain, nested, uneven, rfl⟩
    cases classified with
    | consistent alike => exact absurd ⟨_, alike⟩ uneven
    | lagging nested' => rw [nested.unique nested'.longest]
    | unrecoverable _ apart => exact absurd ⟨_, nested⟩ apart

theorem Classified.unrecoverable_iff (classified : snapshots.Classified verdict)
    (nonempty : snapshots ≠ []) : (∃ why, verdict = .unrecoverable why) ↔
      (¬ ∃ chain, snapshots.Alike chain) ∧ ¬ ∃ chain, snapshots.Nested chain := by
  constructor
  · rintro ⟨why, rfl⟩
    cases classified with
    | unrecoverable _ apart =>
      exact ⟨fun ⟨chain, alike⟩ => apart ⟨chain, alike.nested nonempty⟩, apart⟩
  · rintro ⟨uneven, apart⟩
    cases classified with
    | consistent alike => exact absurd ⟨_, alike⟩ uneven
    | lagging nested => exact absurd ⟨_, nested⟩ apart
    | unrecoverable why => exact ⟨why, rfl⟩

end Snapshots

variable {snapshots : Snapshots}

/-- The verdict on idle nodes with compatible histories. They are consistent where they have
committed the same changes, lag where the histories are the older ends of a longest one, and cannot
be recovered otherwise. The order of the nodes plays no part. -/
theorem analyze_of_compatible (nonempty : snapshots ≠ [])
    (accepting : ∀ entry ∈ snapshots, entry.2.mode = .accepting) (lived : snapshots.Lived)
    (compatible : snapshots.Compatible) :
    (∀ version head, analyze snapshots = .consistent version head ↔
      ∃ chain, snapshots.Alike chain ∧ version = chain.length ∧ head = chain.head?) ∧
    (∀ behind, analyze snapshots = .lagging behind ↔
      ∃ longest, snapshots.Nested longest ∧ (¬ ∃ chain, snapshots.Alike chain) ∧
        behind = snapshots.shorter longest) ∧
    ((∃ why, analyze snapshots = .unrecoverable why) ↔
      (¬ ∃ chain, snapshots.Alike chain) ∧ ¬ ∃ longest, snapshots.Nested longest) ∧
    ∀ shuffled, snapshots.Perm shuffled → (analyze snapshots).Resembles (analyze shuffled) := by
  have classified := Snapshots.analyze_classified nonempty accepting lived compatible
  have any_order : ∀ shuffled, snapshots.Perm shuffled →
      (analyze snapshots).Resembles (analyze shuffled) := by
    intro shuffled perm
    have back := fun entry (mem : entry ∈ shuffled) => perm.mem_iff.2 mem
    have nonempty' : shuffled ≠ [] := fun none => nonempty (none ▸ perm).eq_nil
    exact classified.perm nonempty perm (Snapshots.analyze_classified nonempty'
      (fun entry mem => accepting entry (back entry mem))
      (fun entry mem => lived entry (back entry mem))
      (fun entry mem other mem' => compatible entry (back entry mem) other (back other mem')))
  exact ⟨fun _ _ => classified.consistent_iff nonempty, fun _ => classified.lagging_iff,
    classified.unrecoverable_iff nonempty, any_order⟩

/-- A node that has done nothing lags behind one that has committed two changes. -/
theorem analyze_of_compatible_lagging : ∃ (p q : Participant) (s t : Snapshot),
    p.discover = .ok s ∧ q.discover = .ok t ∧ s.committedChain = [] ∧
    t.committedChain = [⟨.replicate 32 3⟩, ⟨.replicate 32 1⟩] ∧
    Snapshots.Lived [(⟨"a:1"⟩, s), (⟨"b:1"⟩, t)] ∧
    Snapshots.Compatible [(⟨"a:1"⟩, s), (⟨"b:1"⟩, t)] ∧
    analyze [(⟨"a:1"⟩, s), (⟨"b:1"⟩, t)] = .lagging [⟨"a:1"⟩] := by
  obtain ⟨s, shownA, shows⟩ := Participant.discover_blank "a"
  obtain ⟨t, shownB, modeB, chainB, -⟩ := Participant.apart_shown "b"
    (show Participant.foundedCluster.checkStructure = .ok () from rfl)
    (show (⟨.replicate 32 1⟩ : Uuid) ≠ ⟨.replicate 32 3⟩ by decide)
  have modeA : s.mode = .accepting := shows.mode
  have chainA : s.committedChain = [] := shows.committedChain
  have started : Participant.Lived ⟨none⟩ [] (Participant.blank "a") :=
    .started .memory rfl (Participant.start_blank "a")
  obtain ⟨_, livedB⟩ := Participant.lived_apart "b" ⟨.replicate 32 1⟩ Participant.foundedCluster
  have lived : Snapshots.Lived [(⟨"a:1"⟩, s), (⟨"b:1"⟩, t)] := by
    intro entry mem
    rcases List.mem_pair.1 mem with rfl | rfl
    · exact ⟨_, _, _, started, shownA⟩
    · exact ⟨_, _, _, livedB, shownB⟩
  have compatible : Snapshots.Compatible [(⟨"a:1"⟩, s), (⟨"b:1"⟩, t)] := by
    have distinct : ([⟨.replicate 32 3⟩, ⟨.replicate 32 1⟩] : List Uuid).Nodup := by decide
    intro entry mem other mem'
    rcases List.mem_pair.1 mem with rfl | rfl <;> rcases List.mem_pair.1 mem' with rfl | rfl
    all_goals simp only [chainA, chainB]
    · exact .of_suffix List.suffix_rfl List.nodup_nil
    · exact .of_suffix List.nil_suffix distinct
    · exact (Compatible.of_suffix List.nil_suffix distinct).symm
    · exact .of_suffix List.suffix_rfl distinct
  refine ⟨_, _, s, t, shownA, shownB, chainA, chainB, lived, compatible, ?_⟩
  obtain ⟨-, lagging, -⟩ :=
    analyze_of_compatible (by simp) (by simp [modeA, modeB]) lived compatible
  refine (lagging _).2 ⟨t.committedChain, ⟨⟨⟨(⟨"b:1"⟩, t), by simp, rfl⟩, ?_⟩, ?_⟩,
    ?_, ?_⟩
  · simp [chainA]
  · simp [chainA]
  · rintro ⟨chain, alike⟩
    have same := (alike (⟨"a:1"⟩, s) (by simp)).trans (alike (⟨"b:1"⟩, t) (by simp)).symm
    rw [chainA, chainB] at same
    cases same
  · simp [Snapshots.shorter, chainA, chainB]

end Reconfig
