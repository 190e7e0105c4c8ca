/-
The three ways in which a change pass can end once it has begun to change its nodes.

A node that does not prepare the change ends the pass, and the nodes before it are told to roll
the change back. Once all nodes have prepared it, each of them is told to commit it, and the pass
reports the nodes that did not. The theorems here tell from the result of a pass, whatever
faults stood in its way, what has become of each node and what the analysis says of them.
-/
import Reconfig.Proofs.Coordination.Progress
import Reconfig.Proofs.Coordination.Resolution

namespace Reconfig

/-- What is left of the nodes when all of them have prepared the change at this version, and those
that are marked have committed it. -/
structure Fleet.CommitPhase (f after : Fleet) (nodes : List Address) (uuid : Uuid)
    (change : Change) (version : Nat) (committed : Address → Bool) : Prop where
  others : ∀ node, node ∉ nodes → after.member? node = f.member? node
  done : ∀ node ∈ nodes, committed node = true → ∃ p q, f.member? node = some p ∧
    after.member? node = some q ∧ p.TookPart q uuid version .committed ∧ p.TookOver q change
  held : ∀ node ∈ nodes, committed node = false → ∃ p q, f.member? node = some p ∧
    after.member? node = some q ∧ p.TookPart q uuid version .prepared ∧
      (p.store.InMemory → p.KeptTopology q)
  level : (∀ node ∈ nodes, committed node = true) → ∀ fresh, after.Shows nodes fresh →
    analyze fresh = .consistent (version + 1) (some uuid)
  partly : (∃ node ∈ nodes, committed node = false) → ∀ fresh, after.Shows nodes fresh →
    analyze fresh =
      if nodes.any committed then .partiallyCommitted uuid else .partiallyPrepared uuid
  shown : (∀ node ∈ nodes, ∀ p, f.member? node = some p → p.HasRoom) →
    ∃ fresh, after.Shows nodes fresh

/-- What is left of the nodes when the first ones have prepared the change at this version, and
those that are marked have rolled it back. -/
structure Fleet.Undone (f after : Fleet) (nodes first : List Address) (uuid : Uuid)
    (version : Nat) (head : Option Uuid) (rolledBack : Address → Bool) : Prop where
  others : ∀ node, node ∉ first → after.member? node = f.member? node
  undone : ∀ node ∈ first, ∃ p q, f.member? node = some p ∧ after.member? node = some q ∧
    p.TookPart q uuid version (if rolledBack node then .rolledBack else .prepared) ∧
    p.KeptTopology q
  level : (∀ node ∈ first, rolledBack node = true) → ∀ fresh, after.Shows nodes fresh →
    analyze fresh = .consistent version head
  shown : (∀ node ∈ nodes, ∀ p, f.member? node = some p → p.HasRoom) →
    ∃ fresh, after.Shows nodes fresh

namespace Fleet

variable {f g h after : Fleet} {nodes : List Address} {before : Snapshots} {version : Nat}
  {head : Option Uuid} {H : Histories} {sender : Sender} {uuid : Uuid} {change : Change}
  {count : Address → Nat} {clock : Clock} {committed : Address → Bool}

/-- Nodes that have prepared the change, and are told to commit it. -/
theorem Ready.follows (ready : f.Ready nodes before version head) (stand : f.Stand nodes H)
    (same : ∀ node, g.member? node = f.member? node)
    (prepares : g.Told (ChangePass.prepareFor sender uuid (version + 1) change count) clock nodes
      (fun _ => true) h)
    (commits : h.Told (ChangePass.commitFor sender uuid count) clock nodes committed after)
    (storable : ∀ n, (clock n).Storable) : ∀ node ∈ nodes, ∃ p q d, f.member? node = some p ∧
      after.member? node = some q ∧
      p.Follows q (H node) uuid change .commit (committed node) d := by
  intro node mem
  obtain ⟨p, member, stands, short⟩ := ready.member stand mem
  obtain ⟨q, d, found, follows⟩ := prepares.follows rfl commits ⟨_, rfl⟩ (by decide) storable mem
    ((same node).trans member) stands short
  exact ⟨p, q, d, member, found, follows⟩

theorem Ready.commitPhase (ready : f.Ready nodes before version head) (stand : f.Stand nodes H)
    (outside : ∀ node, node ∉ nodes → H node = [])
    (same : ∀ node, g.member? node = f.member? node)
    (prepares : g.Told (ChangePass.prepareFor sender uuid (version + 1) change count) clock nodes
      (fun _ => true) h)
    (commits : h.Told (ChangePass.commitFor sender uuid count) clock nodes committed after)
    (storable : ∀ n, (clock n).Storable) :
    f.CommitPhase after nodes uuid change version committed := by
  have follows := ready.follows stand same prepares commits storable
  have level := ready.level stand
  have each : ∀ node ∈ nodes, ∃ history : History,
      (∀ p, after.member? node = some p → p.Stands history) ∧
      ((∃ d, history = d :: H node ∧ d.uuid = uuid ∧
        d.state = if committed node then .committed else .prepared) ∧
          ∀ d ∈ H node, d.uuid ≠ uuid) := by
    intro node mem
    obtain ⟨p, q, d, -, found, took⟩ := follows node mem
    refine ⟨d :: H node, fun r member => ?_, ⟨d, rfl, took.same, took.state⟩, ?_⟩
    · cases found.symm.trans member
      exact took.stands
    · exact took.same ▸ took.stands.fresh
  obtain ⟨H', stand', carried, -⟩ := stand_of_each each
  have fresh : ∀ node, ∀ d ∈ H node, d.uuid ≠ uuid := by
    intro node d mem
    by_cases inside : node ∈ nodes
    · exact (carried node inside).2 d mem
    · rw [outside node inside] at mem
      cases mem
  have carry : H.Carry H' nodes uuid fun node => if committed node then .committed else .prepared :=
    fun node mem => (carried node mem).1
  refine ⟨fun node away => ?_, fun node mem answer => ?_, fun node mem answer => ?_,
    fun all fresh shows => ?_, fun missed snapshots shows => ?_, fun room => ?_⟩
  · rw [commits.kept node away, prepares.kept node away, same]
  · obtain ⟨p, q, d, member, found, took⟩ := follows node mem
    have state : d.state = .committed := took.state.trans (if_pos answer)
    have part := took.tookPart
    rw [(level node mem).2.1, state] at part
    exact ⟨p, q, member, found, part, took.tookOver state⟩
  · obtain ⟨p, q, d, member, found, took⟩ := follows node mem
    have state : d.state = .prepared := took.state.trans (if_neg (ne_true_of_eq_false answer))
    have part := took.tookPart
    have uncommitted : d.state ≠ .committed := by
      rw [state]
      decide
    rw [(level node mem).2.1, state] at part
    exact ⟨p, q, member, found, part, fun memory => took.kept uncommitted (.inl memory)⟩
  · have level' := level.of_committed fun node mem => carry.at_node mem (if_pos (all node mem))
    exact shows.analyze_of_level stand' ready.nonempty level'
  · obtain ⟨node, mem, uncommitted⟩ := missed
    have listed := shows.nodes
    have carry : H.Carry H' (snapshots.map (·.1)) uuid
        fun node => if committed node then .committed else .prepared :=
      fun node mem => carry node (listed.mem_iff.1 mem)
    have level : H.Level (snapshots.map (·.1)) version head :=
      fun node mem => level node (listed.mem_iff.1 mem)
    rw [carry.analyze_of_partial fresh level (shows.histories stand') (listed.mem_iff.2 mem)
      uncommitted, listed.any_eq]
  · refine exists_shows fun node mem => ?_
    obtain ⟨p, q, d, member, found, took⟩ := follows node mem
    obtain ⟨t, shown⟩ := took.tookPart.shown.2 (room node mem p member)
    exact ⟨q, t, found, shown⟩

/-- Nodes that have prepared the change, and are told to roll it back because one other node did
not prepare it. -/
theorem Ready.undone {k : Fleet} {first : List Address} {target : Address}
    {rolledBack : Address → Bool} (ready : f.Ready nodes before version head)
    (stand : f.Stand nodes H) (same : ∀ node, g.member? node = f.member? node)
    (within : ∀ node ∈ first, node ∈ nodes) (called : target ∈ nodes) (apart : target ∉ first)
    (prepares : g.Told (ChangePass.prepareFor sender uuid (version + 1) change count) clock first
      (fun _ => true) h)
    (refused : h.Told (ChangePass.prepareFor sender uuid (version + 1) change count) clock [target]
      (fun _ => false) k)
    (rollbacks : k.Told (ChangePass.rollbackFor sender uuid count) clock first rolledBack after)
    (storable : ∀ n, (clock n).Storable) :
    f.Undone after nodes first uuid version head rolledBack := by
  have level := ready.level stand
  have follows : ∀ node ∈ first, ∃ p q d, f.member? node = some p ∧ after.member? node = some q ∧
      p.Follows q (H node) uuid change .rollback (rolledBack node) d := by
    intro node mem
    obtain ⟨p, member, stands, short⟩ := ready.member stand (within node mem)
    have kept : k.member? node = h.member? node :=
      refused.kept node fun is => apart (List.mem_singleton.1 is ▸ mem)
    obtain ⟨q, d, found, follows⟩ := prepares.follows kept rollbacks ⟨_, rfl⟩ (by decide) storable
      mem ((same node).trans member) stands short
    exact ⟨p, q, d, member, found, follows⟩
  have others : ∀ node, node ∉ first → after.member? node = f.member? node := by
    intro node outside
    rw [rollbacks.kept node outside, ← same node, ← prepares.kept node outside]
    by_cases is : node = target
    · obtain ⟨p, member, -⟩ := ready.member stand called
      rw [is]
      have unprepared := (prepares.kept target apart).trans ((same target).trans member)
      obtain ⟨q, n, found, received⟩ :=
        refused.received target List.mem_cons_self p unprepared
      rw [found, unprepared, received.prepare_refused]
    · exact refused.kept node fun mem => is (List.mem_singleton.1 mem)
  have each : ∀ node ∈ nodes, ∃ history : History,
      (∀ p, after.member? node = some p → p.Stands history) ∧ (history = H node ∨
        ∃ d, history = d :: H node ∧
          ((∀ node ∈ first, rolledBack node = true) → d.state = .rolledBack)) := by
    intro node mem
    by_cases inside : node ∈ first
    · obtain ⟨p, q, d, -, found, took⟩ := follows node inside
      refine ⟨d :: H node, fun r member => ?_, .inr ⟨d, rfl, fun all => ?_⟩⟩
      · cases found.symm.trans member
        exact took.stands
      · exact took.state.trans (if_pos (all node inside))
    · refine ⟨H node, fun p member => ?_, .inl rfl⟩
      rw [others node inside] at member
      exact stand node mem p member
  obtain ⟨H', stand', left, -⟩ := stand_of_each each
  refine ⟨others, fun node mem => ?_, fun all fresh shows => ?_, fun room => ?_⟩
  · obtain ⟨p, q, d, member, found, took⟩ := follows node mem
    have uncommitted : d.state ≠ .committed := by
      rw [took.state]
      split <;> decide
    have part := took.tookPart
    rw [(level node (within node mem)).2.1, took.state] at part
    exact ⟨p, q, member, found, part, took.kept uncommitted (.inr (by decide))⟩
  · refine shows.analyze_of_level stand' ready.nonempty (level.of_rolledBack fun node mem => ?_)
    rcases left node mem with start | ⟨d, shape, rolledBack⟩
    · exact .inl start
    · exact .inr ⟨d, shape, rolledBack all⟩
  · refine exists_shows fun node mem => ?_
    obtain ⟨p, member, -⟩ := ready.member stand mem
    by_cases inside : node ∈ first
    · obtain ⟨p, q, d, member, found, took⟩ := follows node inside
      obtain ⟨t, shown⟩ := took.tookPart.shown.2 (room node mem p member)
      exact ⟨q, t, found, shown⟩
    · obtain ⟨s, shown, -⟩ := room node mem p member
      exact ⟨p, s, (others node inside).trans member, shown⟩

end Fleet

namespace ChangePass

/-- How a change pass ends on nodes in states that they can come to, with the calls that it
made. -/
inductive Ends (f : Fleet) (uuid : Uuid) (nodes : List (Address × LogicalState))
    (change : Change) : Fleet → Except Error ChangeOutcome → List Call → Prop
  | unready {after : Fleet} {e : Error} {calls : List Call} (untouched : e.Untouched)
      (same : ∀ node, after.member? node = f.member? node)
      (asked : ∀ call ∈ calls, call.phase = .discover) :
      Ends f uuid nodes change after (.error e) calls
  | abandoned {first rest : List Address} {target : Address} {reason : String}
      {rolledBack : Address → Bool} {before : Snapshots} {version : Nat} {head : Option Uuid}
      {after : Fleet} (split : passivesFirst nodes = first ++ target :: rest)
      (ready : f.Ready (nodes.map (·.1)) before version head)
      (undone : f.Undone after (nodes.map (·.1)) first uuid version head rolledBack) :
      Ends f uuid nodes change after (.error (.prepareFailed target.text reason))
        ((passivesFirst nodes).map (⟨·, .discover, true⟩) ++
          (first.map (⟨·, .prepare, true⟩) ++ ⟨target, .prepare, false⟩ ::
            first.map fun node => ⟨node, .rollback, rolledBack node⟩))
  | committed {done : Address → Bool} {before : Snapshots} {version : Nat} {head : Option Uuid}
      {after : Fleet} {result : Except Error ChangeOutcome}
      (ready : f.Ready (nodes.map (·.1)) before version head)
      (phase : f.CommitPhase after (nodes.map (·.1)) uuid change version done)
      (reported : ((∀ node ∈ nodes.map (·.1), done node = true) ∧
          result = .ok ⟨uuid, version + 1, passivesFirst nodes⟩) ∨
        ((∃ node ∈ nodes.map (·.1), done node = false) ∧ ∃ failures : List NodeFailure,
          result = .error (.partialCommit uuid failures) ∧
          failures.map (fun failure => (failure.address, failure.phase)) =
            ((passivesFirst nodes).filter fun node => !done node).map (·, .commit))) :
      Ends f uuid nodes change after result
        ((passivesFirst nodes).map (⟨·, .discover, true⟩) ++
          ((passivesFirst nodes).map (⟨·, .prepare, true⟩) ++
            (passivesFirst nodes).map fun node => ⟨node, .commit, done node⟩))

variable {f after : Fleet} {sender : Sender} {uuid : Uuid}
  {nodes : List (Address × LogicalState)} {change : Change} {patience : Patience}
  {clock : Clock} {result : Except Error ChangeOutcome}

theorem not_mem_before {first rest : List Address} {target : Address}
    (distinct : (first ++ target :: rest).Nodup) : target ∉ first := fun mem =>
  (List.nodup_append.1 distinct).2.2 target mem target List.mem_cons_self rfl

theorem ends (lived : f.Lived (nodes.map (·.1))) (distinct : (nodes.map (·.1)).Nodup)
    (storable : ∀ n, (clock n).Storable)
    (ran : (changePass sender uuid nodes change).run patience clock f = (after, result)) :
    Ends f uuid nodes change after result
      ((changePass sender uuid nodes change).transcript patience clock f) := by
  obtain ⟨H, stand, outside⟩ := lived.stand
  have listed := perm_passivesFirst nodes
  have distinct := listed.nodup_iff.2 distinct
  have ended := changePass_run sender uuid nodes change patience clock f distinct
    fun node mem => stand node (listed.mem_iff.1 mem)
  rw [ran] at ended
  generalize (changePass sender uuid nodes change).transcript patience clock f = calls at ended ⊢
  cases ended with
  | unready untouched same asked => exact .unready untouched same asked
  | begun ready same carried =>
    have ready := ready.perm listed
    cases carried with
    | @abandoned first rest target _ _ _ rolledBack e split prepares refused rollbacks =>
      have within : ∀ node ∈ first, node ∈ nodes.map (·.1) := fun node mem =>
        listed.mem_iff.1 (split ▸ List.mem_append_left _ mem)
      have called : target ∈ nodes.map (·.1) :=
        listed.mem_iff.1 (split ▸ List.mem_append_right _ List.mem_cons_self)
      have apart : target ∉ first := not_mem_before (split ▸ distinct)
      exact .abandoned split ready
        (ready.undone stand same within called apart prepares refused rollbacks storable)
    | @completed _ _ answer prepares commits =>
      have phase := ready.commitPhase stand outside same (prepares.perm listed)
        (commits.perm listed) storable
      refine .committed ready phase ?_
      rcases toCommitResult_cases uuid answer (passivesFirst nodes) with
        ⟨all, ok⟩ | ⟨⟨missed, mem, unanswered⟩, failures, failed, named⟩
      · exact .inl ⟨fun node mem => all node (listed.mem_iff.2 mem), by rw [ok]⟩
      · exact .inr ⟨⟨missed, listed.mem_iff.1 mem, unanswered⟩, failures, by rw [failed],
          named⟩

/-! ## What the results of a pass say

The runs below are foundings of a cluster on two new nodes. -/

def founders : List (Address × LogicalState) := [(⟨"a:1"⟩, .passive), (⟨"b:1"⟩, .active)]

/-- The run that founds the cluster on these nodes. -/
def foundingRun (f : Fleet) : Fleet × Except Error ChangeOutcome :=
  (changePass ⟨"east", "ops"⟩ ⟨.replicate 32 1⟩ founders Participant.founding).run
    ⟨⟨1000⟩, ⟨1000⟩⟩ .everySecond f

def foundingCalls (f : Fleet) : List Call :=
  (changePass ⟨"east", "ops"⟩ ⟨.replicate 32 1⟩ founders Participant.founding).transcript
    ⟨⟨1000⟩, ⟨1000⟩⟩ .everySecond f

theorem foundingRun_eq {f : Fleet} {result : Except Error ChangeOutcome}
    (ended : (foundingRun f).2 = result) : foundingRun f = ((foundingRun f).1, result) :=
  Prod.ext rfl ended

theorem founders_order : passivesFirst founders = [⟨"a:1"⟩, ⟨"b:1"⟩] := rfl

/-- The second node cannot be prepared, nor the first one rolled back. -/
def stranded : Fleet :=
  Fleet.pair.inject ⟨"b:1"⟩ .prepare .unreachable |>.inject ⟨"a:1"⟩ .rollback .unreachable

theorem pair_lived (nodes : List Address) : Fleet.pair.Lived nodes := by
  intro node _ p member
  rcases Fleet.pair_member member with ⟨-, rfl⟩ | ⟨-, rfl⟩
  · exact ⟨_, _, .started .memory rfl (Participant.start_blank "a")⟩
  · exact ⟨_, _, .started .memory rfl (Participant.start_blank "b")⟩

theorem pair_hasRoom : ∀ node ∈ founders.map (·.1), ∀ p, Fleet.pair.member? node = some p →
    p.HasRoom := by
  have blank : ∀ name, (Participant.blank name).HasRoom := by
    intro name
    obtain ⟨s, found, shows⟩ := Participant.discover_blank name
    refine ⟨s, found, ?_⟩
    rw [shows.lineage]
    decide
  intro node _ p member
  rcases Fleet.pair_member member with ⟨-, rfl⟩ | ⟨-, rfl⟩
  · exact blank "a"
  · exact blank "b"

/-- If a node does not prepare the change, no node commits it. The node and those after it are
as they were, and those before it are told once to roll the change back. -/
theorem prepareFailed_undone {node why : String} (lived : f.Lived (nodes.map (·.1)))
    (distinct : (nodes.map (·.1)).Nodup) (storable : ∀ n, (clock n).Storable)
    (ran : (changePass sender uuid nodes change).run patience clock f =
      (after, .error (.prepareFailed node why))) :
    ∃ first rest target rolledBack before version head,
      passivesFirst nodes = first ++ target :: rest ∧ target.text = node ∧
      (changePass sender uuid nodes change).transcript patience clock f =
        (passivesFirst nodes).map (⟨·, .discover, true⟩) ++
          (first.map (⟨·, .prepare, true⟩) ++ ⟨target, .prepare, false⟩ ::
            first.map fun other => ⟨other, .rollback, rolledBack other⟩) ∧
      f.Ready (nodes.map (·.1)) before version head ∧
      f.Undone after (nodes.map (·.1)) first uuid version head rolledBack := by
  have ends := ends lived distinct storable ran
  generalize (changePass sender uuid nodes change).transcript patience clock f = calls at ends ⊢
  cases ends with
  | unready untouched => exact untouched.elim
  | abandoned split ready undone => exact ⟨_, _, _, _, _, _, _, split, rfl, rfl, ready, undone⟩
  | committed _ _ reported =>
    rcases reported with ⟨-, reported⟩ | ⟨-, _, reported, -⟩
    · cases reported
    · cases reported

/-- The first node still holds the change, and the second one is as it was. -/
theorem stranded_undone : ∃ after q version,
    foundingRun stranded =
      (after, .error (.prepareFailed "b:1" "unreachable: b:1 is down")) ∧
    after.member? ⟨"a:1"⟩ = some q ∧
    (Participant.blank "a").TookPart q ⟨.replicate 32 1⟩ version .prepared ∧
    after.member? ⟨"b:1"⟩ = some (.blank "b") := by
  have failed : (foundingRun stranded).2 =
      .error (.prepareFailed "b:1" "unreachable: b:1 is down") := by decide +kernel
  have heard : foundingCalls stranded =
      [⟨⟨"a:1"⟩, .discover, true⟩, ⟨⟨"b:1"⟩, .discover, true⟩, ⟨⟨"a:1"⟩, .prepare, true⟩,
        ⟨⟨"b:1"⟩, .prepare, false⟩, ⟨⟨"a:1"⟩, .rollback, false⟩] := by decide +kernel
  have ran := foundingRun_eq failed
  have lived : stranded.Lived (founders.map (·.1)) := pair_lived _
  obtain ⟨first, rest, target, rolledBack, before, version, head, split, text, calls, ready,
    undone⟩ := prepareFailed_undone lived (by decide) Clock.storable_everySecond ran
  have calls := heard.symm.trans calls
  rw [founders_order] at split calls
  have one : first = [⟨"a:1"⟩] := by
    match first, split with
    | [], split =>
      cases split
      exact absurd text (by decide)
    | [x], split =>
      cases split
      rfl
    | x :: y :: more, split => simp at split
  subst one
  have unanswered : rolledBack ⟨"a:1"⟩ = false := by
    simp only [List.map_cons, List.map_nil, List.cons_append, List.nil_append, List.cons.injEq,
      Call.mk.injEq, and_true, true_and] at calls
    exact calls.2.symm
  obtain ⟨p, q, member, found, part, -⟩ := undone.undone ⟨"a:1"⟩ List.mem_cons_self
  cases member
  rw [unanswered] at part
  exact ⟨_, q, version, ran, found, part, undone.others ⟨"b:1"⟩ (by decide)⟩

/-- All nodes have prepared the change. -/
def PastPrepare (nodes : List Address) (calls : List Call) : Prop :=
  nodes ≠ [] ∧ ∀ node ∈ nodes, ⟨node, .prepare, true⟩ ∈ calls

/-- Once all nodes have prepared the change, each of them is told once to commit it, and the
result of the pass names just those that did not. -/
theorem commit_phase_exact (lived : f.Lived (nodes.map (·.1)))
    (distinct : (nodes.map (·.1)).Nodup) (storable : ∀ n, (clock n).Storable)
    (ran : (changePass sender uuid nodes change).run patience clock f = (after, result))
    (past : PastPrepare (nodes.map (·.1))
        ((changePass sender uuid nodes change).transcript patience clock f) ∨
      ∃ u failures, result = .error (.partialCommit u failures)) :
    ∃ committed before version head,
      (changePass sender uuid nodes change).transcript patience clock f =
        (passivesFirst nodes).map (⟨·, .discover, true⟩) ++
          ((passivesFirst nodes).map (⟨·, .prepare, true⟩) ++
            (passivesFirst nodes).map fun node => ⟨node, .commit, committed node⟩) ∧
      f.Ready (nodes.map (·.1)) before version head ∧
      f.CommitPhase after (nodes.map (·.1)) uuid change version committed ∧
      (((∀ node ∈ nodes.map (·.1), committed node = true) ∧
          result = .ok ⟨uuid, version + 1, passivesFirst nodes⟩) ∨
        ((∃ node ∈ nodes.map (·.1), committed node = false) ∧ ∃ failures : List NodeFailure,
          result = .error (.partialCommit uuid failures) ∧
          failures.map (fun failure => (failure.address, failure.phase)) =
            ((passivesFirst nodes).filter fun node => !committed node).map (·, .commit))) := by
  have ends := ends lived distinct storable ran
  generalize (changePass sender uuid nodes change).transcript patience clock f = calls
    at ends past ⊢
  cases ends with
  | unready untouched same asked =>
    rcases past with ⟨nonempty, prepared⟩ | ⟨u, failures, failed⟩
    · obtain ⟨node, mem⟩ := List.exists_mem_of_ne_nil _ nonempty
      cases asked _ (prepared node mem)
    · cases failed
      exact untouched.elim
  | @abandoned first rest target reason rolledBack _ _ _ _ split ready undone =>
    rcases past with ⟨-, prepared⟩ | ⟨u, failures, failed⟩
    · have called : target ∈ passivesFirst nodes := by
        rw [split]
        exact List.mem_append_right _ List.mem_cons_self
      have apart : target ∉ first :=
        not_mem_before (split ▸ (perm_passivesFirst nodes).nodup_iff.2 distinct)
      have call := prepared target (mem_passivesFirst.1 called)
      simp [apart] at call
    · cases failed
  | committed ready phase reported => exact ⟨_, _, _, _, rfl, ready, phase, reported⟩

/-- Neither node can be told to commit the change, so both still hold it. -/
theorem cutOff_commit_phase : ∃ after failures fresh,
    foundingRun Fleet.cutOff = (after, .error (.partialCommit ⟨.replicate 32 1⟩ failures)) ∧
    failures.map (fun failure => (failure.address, failure.phase)) =
      [(⟨"a:1"⟩, .commit), (⟨"b:1"⟩, .commit)] ∧
    after.Shows (founders.map (·.1)) fresh ∧
    analyze fresh = .partiallyPrepared ⟨.replicate 32 1⟩ := by
  have failed : (foundingRun Fleet.cutOff).2 = .error (.partialCommit ⟨.replicate 32 1⟩
      [⟨⟨"a:1"⟩, .commit, .unreachable "a:1 is down"⟩,
        ⟨⟨"b:1"⟩, .commit, .unreachable "b:1 is down"⟩]) := by decide +kernel
  have ran := foundingRun_eq failed
  have lived : Fleet.cutOff.Lived (founders.map (·.1)) := pair_lived _
  obtain ⟨committed, before, version, head, calls, ready, phase, reported⟩ :=
    commit_phase_exact lived (by decide) Clock.storable_everySecond ran (.inr ⟨_, _, rfl⟩)
  rcases reported with ⟨-, succeeded⟩ | ⟨missed, failures, partially, named⟩
  · cases succeeded
  · cases partially
    rw [founders_order] at named
    have none : (founders.map (·.1)).any committed = false := by
      cases first : committed ⟨"a:1"⟩ <;> cases second : committed ⟨"b:1"⟩ <;>
        simp [founders, first, second] at named ⊢
    obtain ⟨fresh, shows⟩ := phase.shown pair_hasRoom
    have verdict := phase.partly missed fresh shows
    rw [none] at verdict
    exact ⟨_, _, fresh, ran, rfl, shows, verdict⟩

/-- If the pass succeeds, each of the nodes has committed the change. -/
theorem ok_everywhere {outcome : ChangeOutcome} (lived : f.Lived (nodes.map (·.1)))
    (distinct : (nodes.map (·.1)).Nodup) (storable : ∀ n, (clock n).Storable)
    (ran : (changePass sender uuid nodes change).run patience clock f = (after, .ok outcome)) :
    ∃ before version head, outcome = ⟨uuid, version + 1, passivesFirst nodes⟩ ∧
      f.Ready (nodes.map (·.1)) before version head ∧
      (∀ node ∈ nodes.map (·.1), ∃ p q, f.member? node = some p ∧ after.member? node = some q ∧
        p.TookPart q outcome.uuid version .committed ∧ p.TookOver q change) ∧
      (∀ node, node ∉ nodes.map (·.1) → after.member? node = f.member? node) ∧
      (∀ fresh, after.Shows (nodes.map (·.1)) fresh →
        analyze fresh = .consistent outcome.version (some outcome.uuid)) ∧
      ((∀ node ∈ nodes.map (·.1), ∀ p, f.member? node = some p → p.HasRoom) →
        ∃ fresh, after.Shows (nodes.map (·.1)) fresh) := by
  have ends := ends lived distinct storable ran
  generalize (changePass sender uuid nodes change).transcript patience clock f = calls at ends
  cases ends with
  | committed ready phase reported =>
    rcases reported with ⟨all, reported⟩ | ⟨-, _, reported, -⟩
    · cases reported
      exact ⟨_, _, _, rfl, ready, fun node mem => phase.done node mem (all node mem), phase.others,
        phase.level all, phase.shown⟩
    · cases reported

/-- Both nodes are founded. -/
theorem pair_founded : ∃ after fresh,
    foundingRun Fleet.pair =
      (after, .ok ⟨⟨.replicate 32 1⟩, 1, [⟨"a:1"⟩, ⟨"b:1"⟩]⟩) ∧
    (∀ node ∈ founders.map (·.1), ∃ p q, Fleet.pair.member? node = some p ∧
      after.member? node = some q ∧ p.TookPart q ⟨.replicate 32 1⟩ 0 .committed ∧
      p.TookOver q Participant.founding) ∧
    after.Shows (founders.map (·.1)) fresh ∧
    analyze fresh = .consistent 1 (some ⟨.replicate 32 1⟩) := by
  have accepted : ∀ node ∈ passivesFirst founders, ∀ p, Fleet.pair.member? node = some p →
      ∀ n, (p.handle (.prepare ⟨⟨0, "east", "ops"⟩, ⟨.replicate 32 1⟩, 1, Participant.founding⟩)
        (Clock.everySecond n)).2 = .ok () := by
    intro node _ p member n
    rcases Fleet.pair_member member with ⟨-, rfl⟩ | ⟨-, rfl⟩
    · rfl
    · rfl
  have level : Histories.Level (fun _ => []) (passivesFirst founders) 0 none :=
    fun _ _ => ⟨rfl, rfl, rfl⟩
  have agree : ∀ node ∈ passivesFirst founders, ∀ p, Fleet.pair.member? node = some p →
      ∀ l ∈ p.processor.listeners, l.Agrees := by
    intro node _ p member
    rcases Fleet.pair_member member with ⟨-, rfl⟩ | ⟨-, rfl⟩
    · nofun
    · nofun
  have healthy : Fleet.pair.Healthy (fun _ => []) (passivesFirst founders) := Fleet.pair_healthy
  have succeeded : (foundingRun Fleet.pair).2 =
      .ok ⟨⟨.replicate 32 1⟩, 1, passivesFirst founders⟩ :=
    healthy.changePass_ok ⟨"east", "ops"⟩ ⟨.replicate 32 1⟩ Participant.founding
      ⟨⟨1000⟩, ⟨1000⟩⟩ (by decide) (by decide) level (by decide) agree accepted
      fun n => (Clock.storable_everySecond n).legible
  have ran := foundingRun_eq succeeded
  obtain ⟨before, version, head, outcome, ready, each, -, verdict, shown⟩ :=
    ok_everywhere (pair_lived _) (by decide) Clock.storable_everySecond ran
  cases outcome
  obtain ⟨fresh, shows⟩ := shown pair_hasRoom
  exact ⟨_, fresh, ran, each, shows, verdict fresh shows⟩

end ChangePass
end Reconfig
