/-
What a change pass leaves behind when it has run to its end.

A pass that finds its nodes ready has seen their histories. Each of them has then one more
request, unless it was not to prepare the change any more, and what the nodes show afterwards
is a matter of how they closed this request.
-/
import Reconfig.Proofs.Coordination.Phases

namespace Reconfig

/-! ## The nodes of a pass -/

/-- The nodes are in states that they can come to. -/
def Fleet.Lived (f : Fleet) (nodes : List Address) : Prop :=
  ∀ node ∈ nodes, ∀ p, f.member? node = some p →
    ∃ limits accepted, Participant.Lived limits accepted p

/-- The snapshots are those of these nodes, in any order. -/
structure Fleet.Shows (f : Fleet) (nodes : List Address) (snapshots : Snapshots) : Prop where
  nodes : (snapshots.map (·.1)).Perm nodes
  found : ∀ entry ∈ snapshots, ∃ p, f.member? entry.1 = some p ∧ p.discover = .ok entry.2

/-- The nodes show that they are idle and level. -/
structure Fleet.Ready (f : Fleet) (nodes : List Address) (snapshots : Snapshots) (version : Nat)
    (head : Option Uuid) : Prop where
  shows : f.Shows nodes snapshots
  verdict : analyze snapshots = .consistent version head

/-- These are the histories of the nodes. -/
def Fleet.Stand (f : Fleet) (nodes : List Address) (H : Histories) : Prop :=
  ∀ node ∈ nodes, ∀ p, f.member? node = some p → p.Stands (H node)

namespace Fleet

variable {f g : Fleet} {nodes : List Address} {snapshots : Snapshots} {H : Histories}
  {version : Nat} {head : Option Uuid}

theorem stand_of_each {P : Address → History → Prop}
    (each : ∀ node ∈ nodes, ∃ h, (∀ p, f.member? node = some p → p.Stands h) ∧ P node h) :
    ∃ H : Histories, f.Stand nodes H ∧ (∀ node ∈ nodes, P node (H node)) ∧
      ∀ node, node ∉ nodes → H node = [] := by
  have history : ∀ node, ∃ h : History, (node ∈ nodes →
      (∀ p, f.member? node = some p → p.Stands h) ∧ P node h) ∧ (node ∉ nodes → h = []) := by
    intro node
    by_cases mem : node ∈ nodes
    · obtain ⟨h, stands, property⟩ := each node mem
      exact ⟨h, fun _ => ⟨stands, property⟩, fun outside => absurd mem outside⟩
    · exact ⟨[], fun inside => absurd inside mem, fun _ => rfl⟩
  choose H inside outside using history
  exact ⟨H, fun node mem => (inside node mem).1, fun node mem => (inside node mem).2, outside⟩

theorem Lived.stand (lived : f.Lived nodes) :
    ∃ H : Histories, f.Stand nodes H ∧ ∀ node, node ∉ nodes → H node = [] := by
  have each : ∀ node ∈ nodes, ∃ h : History,
      (∀ p, f.member? node = some p → p.Stands h) ∧ True := by
    intro node mem
    cases member : f.member? node with
    | none => exact ⟨[], nofun, trivial⟩
    | some p =>
      obtain ⟨limits, accepted, past⟩ := lived node mem p member
      obtain ⟨h, stands⟩ := past.stands
      refine ⟨h, fun q same => ?_, trivial⟩
      cases same
      exact stands
  obtain ⟨H, stand, -, outside⟩ := stand_of_each each
  exact ⟨H, stand, outside⟩

/-- A message leaves the nodes in states that they can come to. -/
theorem Lived.send (lived : f.Lived nodes) (node : Address) (m : Message) (limit : Option Span)
    {now : Timestamp} (storable : now.Storable) : (f.send node m limit now).1.Lived nodes := by
  intro other mem q found
  by_cases is : other = node
  · subst is
    cases member : f.member? other with
    | none =>
      have untold : (f.send other m limit now).1.member? other = none := by
        unfold Fleet.send
        cases reached : f.reach other m.phase limit with
        | error e => exact member
        | ok p => cases (reach_member reached).symm.trans member
      rw [untold] at found
      cases found
    | some p =>
      obtain ⟨r, left, received⟩ := send_receives member m limit now
      cases left.symm.trans found
      generalize (f.send other m limit now).2.isOk = answered at received
      obtain ⟨limits, accepted, past⟩ := lived other mem p member
      cases received with
      | lost => exact ⟨limits, accepted, past⟩
      | handled => exact ⟨limits, _, past.handled m now storable⟩
  · rw [f.member?_send_of_ne m limit now is] at found
    exact lived other mem q found

/-- So does a whole pass. -/
theorem Lived.run {α : Type} (lived : f.Lived nodes) (pass : Pass α) (patience : Patience)
    {clock : Clock} (storable : ∀ n, (clock n).Storable) :
    (pass.run patience clock f).1.Lived nodes := by
  induction pass generalizing f with
  | done => exact lived
  | discover asked next ih =>
    refine ih _ fun node mem p member => lived node mem p ?_
    rw [← member, f.member?_discoverAll]
  | send node m next ih => exact ih _ (lived.send node m (some patience.call) (storable _))

theorem exists_shows (shown : ∀ node ∈ nodes, ∃ p s, f.member? node = some p ∧
    p.discover = .ok s) : ∃ snapshots, f.Shows nodes snapshots := by
  induction nodes with
  | nil => exact ⟨[], .refl _, List.forall_mem_nil _⟩
  | cons node rest ih =>
    obtain ⟨⟨p, s, member, found⟩, others⟩ := List.forall_mem_cons.1 shown
    obtain ⟨snapshots, shows⟩ := ih others
    exact ⟨(node, s) :: snapshots, shows.nodes.cons _,
      List.forall_mem_cons.2 ⟨⟨p, member, found⟩, shows.found⟩⟩

namespace Shows

theorem node_mem (shows : f.Shows nodes snapshots) {entry : Address × Snapshot}
    (mem : entry ∈ snapshots) : entry.1 ∈ nodes :=
  shows.nodes.mem_iff.1 (List.mem_map_of_mem mem)

theorem entry_mem (shows : f.Shows nodes snapshots) {node : Address} (mem : node ∈ nodes) :
    ∃ entry ∈ snapshots, entry.1 = node :=
  List.mem_map.1 (shows.nodes.mem_iff.2 mem)

/-- The snapshots show the histories of the nodes. -/
theorem histories (shows : f.Shows nodes snapshots) (stand : f.Stand nodes H) :
    snapshots.Show (snapshots.map (·.1)) H where
  nodes := rfl
  shows entry mem := by
    obtain ⟨p, member, found⟩ := shows.found entry mem
    exact (stand entry.1 (shows.node_mem mem) p member).shows found

theorem analyze_of_level (shows : f.Shows nodes snapshots) (stand : f.Stand nodes H)
    (nonempty : nodes ≠ []) (level : H.Level nodes version head) :
    analyze snapshots = .consistent version head := by
  refine (shows.histories stand).analyze_of_level ?_ fun node mem =>
    level node (shows.nodes.mem_iff.1 mem)
  intro none
  exact nonempty (none ▸ shows.nodes).nil_eq.symm

theorem perm {listed : List Address} (shows : f.Shows nodes snapshots)
    (same : nodes.Perm listed) : f.Shows listed snapshots :=
  ⟨shows.nodes.trans same, shows.found⟩

end Shows

namespace Ready

theorem nonempty (ready : f.Ready nodes snapshots version head) : nodes ≠ [] := by
  rintro rfl
  have none : snapshots = [] := List.map_eq_nil_iff.1 ready.shows.nodes.eq_nil
  have verdict := ready.verdict
  rw [none] at verdict
  cases verdict

theorem level (ready : f.Ready nodes snapshots version head) (stand : f.Stand nodes H) :
    H.Level nodes version head := fun node mem =>
  (ready.shows.histories stand).level_of_analyze ready.verdict node
    (ready.shows.nodes.mem_iff.2 mem)

/-- Each node can be asked, so its history is not too long. -/
theorem member (ready : f.Ready nodes snapshots version head) (stand : f.Stand nodes H)
    {node : Address} (mem : node ∈ nodes) :
    ∃ p, f.member? node = some p ∧ p.Stands (H node) ∧ (H node).length ≤ chainLimit := by
  obtain ⟨entry, found, rfl⟩ := ready.shows.entry_mem mem
  obtain ⟨p, member, shown⟩ := ready.shows.found entry found
  have stands := stand entry.1 mem p member
  exact ⟨p, member, stands, stands.shown_iff.1 ⟨_, shown⟩⟩

theorem perm {listed : List Address} (ready : f.Ready nodes snapshots version head)
    (same : nodes.Perm listed) : f.Ready listed snapshots version head :=
  ⟨ready.shows.perm same, ready.verdict⟩

end Ready
end Fleet

/-! ## A whole pass -/

/-- The error says nothing of a change that was begun. -/
def Error.Untouched : Error → Prop
  | .prepareFailed .. => False
  | .partialCommit .. => False
  | _ => True

namespace Report

variable {r : Report} {e : Error}

theorem untouched_of_readyVersion (failed : r.readyVersion = .error e) : e.Untouched := by
  unfold readyVersion at failed
  dsimp only at failed
  split at failed
  · cases failed
    exact True.intro
  · split at failed
    · cases failed
      exact True.intro
    · split at failed
      · cases failed
      · cases failed
        exact True.intro
      · cases failed
        exact True.intro

/-- If nobody is unreachable, all answers are snapshots. -/
theorem answers_eq_map {answers : List (Address × Except CallError Snapshot)}
    (reachable : (ofAnswers answers).unreachable = []) :
    ∃ snapshots : Snapshots, answers = snapshots.map fun entry => (entry.1, .ok entry.2) := by
  induction answers with
  | nil => exact ⟨[], rfl⟩
  | cons entry rest ih =>
    obtain ⟨node, answer⟩ := entry
    cases answer with
    | error e => cases reachable
    | ok s =>
      obtain ⟨snapshots, rfl⟩ := ih reachable
      exact ⟨(node, s) :: snapshots, rfl⟩

end Report

namespace ChangePass

/-- How a change pass ends: it finds that the nodes are not ready for a change, or it carries the
change out. -/
inductive RunsTo (f : Fleet) (H : Histories) (sender : Sender) (uuid : Uuid)
    (order : List Address) (change : Change) (clock : Clock) :
    Fleet → Except Error ChangeOutcome → List Call → Prop
  | unready {after : Fleet} {e : Error} {calls : List Call} (untouched : e.Untouched)
      (same : ∀ node, after.member? node = f.member? node)
      (asked : ∀ call ∈ calls, call.phase = .discover) :
      RunsTo f H sender uuid order change clock after (.error e) calls
  | begun {version : Nat} {head : Option Uuid} {before : Snapshots} {g after : Fleet}
      {result : Except Error Unit} {calls : List Call}
      (ready : f.Ready order before version head)
      (same : ∀ node, g.member? node = f.member? node)
      (carried : Carried g sender uuid (version + 1) change (fun node => (H node).messages) clock
        order after result calls) :
      RunsTo f H sender uuid order change clock after
        (result.map fun () => ⟨uuid, version + 1, order⟩)
        (order.map (⟨·, .discover, true⟩) ++ calls)

end ChangePass

theorem changePass_run (sender : Sender) (uuid : Uuid) (nodes : List (Address × LogicalState))
    (change : Change) (patience : Patience) (clock : Clock) (f : Fleet) {H : Histories}
    (distinct : (passivesFirst nodes).Nodup) (stand : f.Stand (passivesFirst nodes) H) :
    ChangePass.RunsTo f H sender uuid (passivesFirst nodes) change clock
      ((changePass sender uuid nodes change).run patience clock f).1
      ((changePass sender uuid nodes change).run patience clock f).2
      ((changePass sender uuid nodes change).transcript patience clock f) := by
  unfold changePass
  dsimp only
  split
  · have untouched : (Error.invalidConfig "no node to change").Untouched := trivial
    rw [Pass.run_pure, Pass.transcript_pure]
    exact .unready untouched (fun _ => rfl) nofun
  · rename_i nonempty
    rw [Pass.run_bind, Pass.transcript_bind]
    have same := f.member?_discoverAll (some patience.discovery) (passivesFirst nodes)
    have asked := (f.discoverAll_serves (some patience.discovery) (passivesFirst nodes)).1
    have found : ∀ node s, (node, .ok s) ∈
        (f.discoverAll (some patience.discovery) (passivesFirst nodes)).2 →
        ∃ p, f.member? node = some p ∧ p.discover = .ok s :=
      fun node s answer => Fleet.shown_of_discoverAll answer
    simp only [Pass.check, Pass.run, Pass.transcript, List.append_nil]
    generalize f.discoverAll (some patience.discovery) (passivesFirst nodes) = round at *
    obtain ⟨g, answers⟩ := round
    cases ready : (Report.ofAnswers answers).readyVersion with
    | error e =>
      simp only [Outcome.error_bind, Pass.run_pure, Pass.transcript_pure, List.append_nil]
      refine .unready (Report.untouched_of_readyVersion ready) same fun call mem => ?_
      obtain ⟨entry, -, rfl⟩ := List.mem_map.1 mem
      rfl
    | ok next =>
      obtain ⟨reachable, -, version, head, rfl, verdict⟩ := Report.readyVersion_eq_ok ready
      obtain ⟨snapshots, rfl⟩ := Report.answers_eq_map reachable
      rw [List.map_map] at asked
      have shows : f.Shows (passivesFirst nodes) snapshots :=
        ⟨.of_eq asked, fun entry mem => found entry.1 entry.2 (List.mem_map_of_mem mem)⟩
      rw [Report.ofAnswers_ok] at ready verdict
      have counted := (shows.histories stand).counts_eq
        (fun node mem => shows.nodes.mem_iff.2 mem) []
      have carried := ChangePass.carryOut_run sender uuid (version + 1) change
        (fun node => (H node).messages) patience clock g distinct
      have asked : (snapshots.map fun entry => (entry.1, .ok entry.2)).map
          (fun entry : Address × Except CallError Snapshot =>
            (⟨entry.1, .discover, entry.2.isOk⟩ : Call)) =
          (passivesFirst nodes).map (⟨·, .discover, true⟩) := by
        rw [← asked, List.map_map, List.map_map]
        rfl
      simp only [counted, Report.ofAnswers_ok, Outcome.ok_bind, Outcome.pure_eq_ok]
      rw [Pass.run_bind, Pass.transcript_bind, Pass.run_pure, Pass.transcript_pure, asked,
        List.append_nil]
      exact .begun ⟨shows, verdict⟩ same carried

/-! ## What is left of the nodes -/

theorem Participant.Stands.fresh {p : Participant} {h : History} {d : ChangeDetails}
    (stands : p.Stands (d :: h)) : ∀ e ∈ h, e.uuid ≠ d.uuid := by
  obtain ⟨limits, sound⟩ := stands.sound
  cases sound with
  | cons _ _ fresh => exact fresh

/-- A node that has prepared the change, and is told to close it. -/
theorem Fleet.Told.follows {f g h last : Fleet} {sender : Sender} {uuid : Uuid} {version : Nat}
    {change : Change} {count : Address → Nat} {clock : Clock} {nodes : List Address}
    {message : Address → Message} {answered : Address → Bool}
    {closing : Participant.Closing} {node : Address} {p : Participant} {history : History}
    (prepares : f.Told (ChangePass.prepareFor sender uuid version change count) clock nodes
      (fun _ => true) g)
    (same : h.member? node = g.member? node) (closes : h.Told message clock nodes answered last)
    (kind : ∃ context, (message node).closes? = some (context, uuid, closing))
    (terminal : closing.target ≠ .prepared) (storable : ∀ n, (clock n).Storable)
    (mem : node ∈ nodes) (member : f.member? node = some p) (stands : p.Stands history)
    (short : history.length ≤ chainLimit) : ∃ q d, last.member? node = some q ∧
      p.Follows q history uuid change closing (answered node) d := by
  obtain ⟨q, n, between, prepared⟩ := prepares.received node mem p member
  obtain ⟨r, n', after, closed⟩ := closes.received node mem q (same.trans between)
  obtain ⟨context, kind⟩ := kind
  obtain ⟨d, follows⟩ :=
    stands.follows short prepared closed kind terminal (storable n) (storable n')
  exact ⟨r, d, after, follows⟩

/-- The change is the newest request of each of the nodes, in the given state. -/
def Histories.Carry (H₀ H : Histories) (nodes : List Address) (uuid : Uuid)
    (state : Address → ChangeState) : Prop :=
  ∀ node ∈ nodes, ∃ d, H node = d :: H₀ node ∧ d.uuid = uuid ∧ d.state = state node

namespace Histories.Carry

variable {H₀ H : Histories} {nodes : List Address} {uuid : Uuid} {version : Nat}
  {head : Option Uuid} {snapshots : Snapshots}

theorem at_node {state : Address → ChangeState} {node : Address} {known : ChangeState}
    (carry : H₀.Carry H nodes uuid state) (mem : node ∈ nodes) (is : state node = known) :
    ∃ d, H node = d :: H₀ node ∧ d.uuid = uuid ∧ d.state = known :=
  is ▸ carry node mem

/-- The verdict on nodes of which some have not committed the change that all have prepared. -/
theorem analyze_of_partial {committed : Address → Bool}
    (carry : H₀.Carry H nodes uuid fun node => if committed node then .committed else .prepared)
    (fresh : ∀ node, ∀ d ∈ H₀ node, d.uuid ≠ uuid) (before : H₀.Level nodes version head)
    (shown : snapshots.Show nodes H) {missed : Address} (called : missed ∈ nodes)
    (uncommitted : committed missed = false) : analyze snapshots =
      if nodes.any committed then .partiallyCommitted uuid else .partiallyPrepared uuid := by
  have closed : ∀ node ∈ nodes, committed node = true → ∃ d, H node = d :: H₀ node ∧
      d.uuid = uuid ∧ d.state = .committed :=
    fun node mem answer => carry.at_node mem (if_pos answer)
  have open_ : ∀ node ∈ nodes, committed node = false → ∃ d, H node = d :: H₀ node ∧
      d.uuid = uuid ∧ d.state = .prepared :=
    fun node mem answer => carry.at_node mem (if_neg (ne_true_of_eq_false answer))
  have prepared : (H missed).mode = .prepared := by
    obtain ⟨d, shape, -, inFlight⟩ := open_ missed called uncommitted
    exact History.mode_eq_prepared_iff.2 ⟨d, _, shape, inFlight⟩
  cases some_ : nodes.any committed with
  | true =>
    obtain ⟨done, inside, taken⟩ := List.any_eq_true.1 some_
    have pending : Pending nodes uuid H₀ H .committed := by
      refine ⟨.inl rfl, fresh, fun node mem => .inr ?_, fun _ => ⟨done, inside, ?_⟩⟩
      · cases answer : committed node with
        | true =>
          obtain ⟨d, shape, same, state⟩ := closed node mem answer
          exact ⟨d, shape, same, .inr state⟩
        | false =>
          obtain ⟨d, shape, same, state⟩ := open_ node mem answer
          exact ⟨d, shape, same, .inl state⟩
      · obtain ⟨d, shape, same, state⟩ := closed done inside taken
        refine ⟨d, ?_, same, state⟩
        rw [shape]
        exact List.mem_cons_self
    exact pending.analyze_committed before shown called prepared
  | false =>
    have all : ∀ node ∈ nodes, ∃ d, H node = d :: H₀ node ∧ d.uuid = uuid ∧
        d.state = .prepared := fun node mem =>
      open_ node mem (Bool.eq_false_iff.2 (List.any_eq_false.1 some_ node mem))
    have pending : Pending nodes uuid H₀ H .rolledBack := by
      refine ⟨.inr rfl, fresh, fun node mem => .inr ?_, nofun⟩
      obtain ⟨d, shape, same, state⟩ := all node mem
      exact ⟨d, shape, same, .inl state⟩
    refine pending.analyze_prepared before shown called prepared ?_
    rw [Analysis.recordedAs_eq_false]
    intro entry mem recorded
    obtain ⟨d, shape, same, state⟩ := all entry.1 (shown.node_mem mem)
    rcases pending.stateOf?_eq shown mem with ⟨absent, -⟩ | ⟨e, shape', -, stateOf, -⟩
    · rw [absent] at recorded
      cases recorded
    · cases shape.symm.trans shape'
      rw [stateOf, state] at recorded
      cases recorded

end Histories.Carry

end Reconfig
