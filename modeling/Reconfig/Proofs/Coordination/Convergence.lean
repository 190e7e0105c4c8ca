/-
Repairs of nodes that a change pass has left behind.

Whatever calls a change pass made before it stopped, one repair finds out from the
nodes alone whether the change has to be committed or rolled back, and the nodes
are level again after it.
-/
import Reconfig.Proofs.Coordination.Agreement
import Reconfig.Proofs.Coordination.Repair

namespace Reconfig

/-- The states of a node that was started on an empty store. -/
inductive Participant.Reached : Participant → Prop
  | start {name : String} {store : Store} {processor : Processor} {p : Participant}
      (fresh : store.space = ∅) (started : start name store processor = .ok p) : Reached p
  | handle {p : Participant} (earlier : Reached p) (m : Message) (now : Timestamp) :
      Reached (p.handle m now).1

theorem Participant.Reached.history {p : Participant} (reached : p.Reached) :
    ∃ h, p.space.Keeps h ∧ History.Sound p.processor.limits h := by
  induction reached with
  | start fresh started => exact ⟨[], (start_keeps fresh started).1, .nil⟩
  | handle _ m now ih =>
    obtain ⟨h, keeps, sound⟩ := ih
    obtain ⟨h', keeps', sound', -⟩ := (handled keeps sound m now).history keeps sound
    exact ⟨h', keeps', sound'⟩

theorem Fleet.records_of_each {f : Fleet} (each : ∀ node p, f.member? node = some p →
    ∃ h, p.space.Keeps h ∧ History.Sound p.processor.limits h) :
    ∃ H, f.Records H ∧ ∀ node, f.member? node = none → H node = [] := by
  have history : ∀ node, ∃ h : History, (∀ p, f.member? node = some p → p.space.Keeps h ∧
      History.Sound p.processor.limits h) ∧ (f.member? node = none → h = []) := by
    intro node
    cases member : f.member? node with
    | none => exact ⟨[], nofun, fun _ => rfl⟩
    | some p =>
      obtain ⟨h, keeps, sound⟩ := each node p member
      refine ⟨h, fun q same => ?_, nofun⟩
      cases same
      exact ⟨keeps, sound⟩
  choose H recorded absent using history
  exact ⟨H, ⟨fun member => (recorded _ _ member).1, fun member => (recorded _ _ member).2⟩, absent⟩

theorem Fleet.records_of_reached {f : Fleet}
    (reached : ∀ node p, f.member? node = some p → p.Reached) :
    ∃ H, f.Records H ∧ ∀ node, f.member? node = none → H node = [] :=
  records_of_each fun node p member => (reached node p member).history

theorem Fleet.Serves.member {f next : Fleet} {event : Event} (served : f.Serves event next)
    (node : Address) : (next.member? node).isSome = (f.member? node).isSome := by
  cases served with
  | asked => rfl
  | unanswered => rfl
  | lost => rfl
  | @delivered target p m now _ a answer member delivered back =>
    have next_eq : next = ((f.record target m.phase).deliver target p m now).1 := by
      rw [delivered]
    rw [next_eq, member?_deliver]
    by_cases same : node = target
    · rw [if_pos same, same, member]
      rfl
    · rw [if_neg same, member?_record]

theorem Coordinated.member {ι : Type} [DecidableEq ι] {jobs : ι → Job} {start f : Fleet}
    {trace : List (ι × Event)} (run : Coordinated jobs start trace f) (node : Address) :
    (f.member? node).isSome = (start.member? node).isSome := by
  induction run with
  | start => rfl
  | call _ _ served ih => rw [served.member node, ih]

theorem Coordinated.member_before {ι : Type} [DecidableEq ι] {jobs : ι → Job} {start f : Fleet}
    {trace : List (ι × Event)} (run : Coordinated jobs start trace f) {node : Address}
    {p : Participant} (found : f.member? node = some p) :
    ∃ q, start.member? node = some q := by
  have known := run.member node
  rw [found] at known
  exact Option.isSome_iff_exists.1 known.symm

/-- The nodes that the snapshots are of accept changes, at one version and with one
newest change. -/
structure Snapshots.Settled (snapshots : Snapshots) (version : Nat) (head : Option Uuid) :
    Prop where
  verdict : analyze snapshots = .consistent version head
  level : ∀ entry ∈ snapshots, entry.2.mode = .accepting ∧ entry.2.currentVersion = version ∧
    entry.2.committedHead = head

namespace Snapshots.Show

variable {snapshots : Snapshots} {nodes : List Address} {H : Histories} {version : Nat}
  {head : Option Uuid}

theorem settled (shown : snapshots.Show nodes H) (nonempty : nodes ≠ [])
    (level : H.Level nodes version head) : snapshots.Settled version head where
  verdict := shown.analyze_of_level nonempty level
  level entry mem := by
    have shows := shown.shows entry mem
    rw [shows.mode, shows.currentVersion, shows.committedHead]
    exact level entry.1 (shown.node_mem mem)

theorem nonempty (shown : snapshots.Show nodes H)
    (consistent : analyze snapshots = .consistent version head) : nodes ≠ [] := by
  intro none
  have shown := shown.nodes
  rw [none, List.map_eq_nil_iff] at shown
  rw [shown] at consistent
  cases consistent

theorem fresh (shown : snapshots.Show nodes H) {uuid : Uuid}
    (new : ∀ entry ∈ snapshots, ∀ e ∈ entry.2.lineage, e.uuid ≠ uuid) :
    ∀ node ∈ nodes, ∀ d ∈ H node, d.uuid ≠ uuid := by
  intro node mem d earlier
  obtain ⟨entry, found, rfl⟩ := shown.entry_mem mem
  refine new entry found d.entry ?_
  rw [(shown.shows entry found).lineage]
  exact List.mem_map_of_mem earlier

end Snapshots.Show

/-- The nodes of the fleet, and what they showed before the pass. -/
structure Fleet.Discovered (f : Fleet) (nodes : List Address) (snapshots : Snapshots) : Prop where
  only : ∀ {node p}, f.member? node = some p → node ∈ nodes
  nodes : snapshots.map (·.1) = nodes
  found : ∀ entry ∈ snapshots, ∃ p, f.member? entry.1 = some p ∧ p.discover = .ok entry.2

namespace Fleet.Discovered

variable {f : Fleet} {nodes : List Address} {snapshots : Snapshots}

theorem member (discovered : f.Discovered nodes snapshots) :
    ∀ node ∈ nodes, (f.member? node).isSome := by
  intro node called
  rw [← discovered.nodes] at called
  obtain ⟨entry, mem, rfl⟩ := List.mem_map.1 called
  obtain ⟨p, member, -⟩ := discovered.found entry mem
  exact Option.isSome_iff_exists.2 ⟨p, member⟩

theorem histories (discovered : f.Discovered nodes snapshots)
    (reached : ∀ {node p}, f.member? node = some p → p.Reached ∧ p.store.InMemory) :
    ∃ H, f.Records H ∧ f.Sturdy H ∧ snapshots.Show nodes H ∧
      (∀ node ∈ nodes, (H node).length ≤ chainLimit) ∧ ∀ node, node ∉ nodes → H node = [] := by
  obtain ⟨H, records, absent⟩ := Fleet.records_of_reached fun node p member => (reached member).1
  have each : ∀ node ∈ nodes, ∃ p, f.member? node = some p ∧ p.space.Legible (H node) ∧
      (H node).length ≤ chainLimit := by
    intro node called
    rw [← discovered.nodes] at called
    obtain ⟨entry, mem, rfl⟩ := List.mem_map.1 called
    obtain ⟨p, member, found⟩ := discovered.found entry mem
    exact ⟨p, member, (Participant.discover_eq_ok_iff (records.keeps member)
      (records.sound member)).1 ⟨_, found⟩⟩
  refine ⟨H, records, ⟨fun member => (reached member).2, fun {node p} member => ?_⟩,
    ⟨discovered.nodes, fun entry mem => ?_⟩, fun node called => ?_,
    fun node outside => absent node ?_⟩
  · obtain ⟨q, member', legible, -⟩ := each node (discovered.only member)
    cases member.symm.trans member'
    exact legible
  · obtain ⟨p, member, found⟩ := discovered.found entry mem
    exact Participant.shows_of_discover (records.keeps member) (records.sound member) found
  · obtain ⟨p, -, -, short⟩ := each node called
    exact short
  · cases member : f.member? node with
    | none => rfl
    | some p => exact absurd (discovered.only member) outside

end Fleet.Discovered

namespace Fleet.Healthy

variable {f : Fleet} {H₀ H : Histories} {nodes : List Address} {uuid : Uuid}
  {target : ChangeState} {version : Nat} {head : Option Uuid}

theorem repair_level (healthy : f.Healthy H nodes) (pending : Pending nodes uuid H₀ H target)
    (before : H₀.Level nodes version head) (distinct : nodes.Nodup) (nonempty : nodes ≠ [])
    (sender : Sender) (patience : Patience) {clock : Clock} (readable : ∀ n, (clock n).Legible) :
    ∃ outcome mended H', (repairPass sender nodes none).run patience clock f =
      (mended, .ok outcome) ∧ mended.Healthy H' nodes ∧ Pending nodes uuid H₀ H' target ∧
      H'.Level nodes (if target = .committed then version + 1 else version)
        (if target = .committed then some uuid else head) := by
  obtain ⟨outcome, H', ended, mended, pending', settled⟩ :=
    healthy.repair pending before distinct nonempty sender patience readable
  exact ⟨outcome, _, H', Prod.ext rfl ended, mended, pending', pending'.level before settled⟩

theorem committed_iff (healthy : f.Healthy H nodes)
    (only : ∀ {node p}, f.member? node = some p → node ∈ nodes) :
    (∃ node p, f.member? node = some p ∧ p.space.stateOf? uuid = some .committed) ↔
      ∃ node ∈ nodes, ∃ d ∈ H node, d.uuid = uuid ∧ d.state = .committed := by
  constructor
  · rintro ⟨node, p, member, stored⟩
    exact ⟨node, only member, (healthy.records.keeps member).stateOf?_eq_some.1 stored⟩
  · rintro ⟨node, mem, d, recorded⟩
    obtain ⟨p, member⟩ := healthy.member node mem
    exact ⟨node, p, member, (healthy.records.keeps member).stateOf?_eq_some.2 ⟨d, recorded⟩⟩

end Fleet.Healthy

theorem Pending.not_committed {nodes : List Address} {uuid : Uuid} {H₀ H : Histories}
    (pending : Pending nodes uuid H₀ H .rolledBack) {node : Address} (called : node ∈ nodes)
    {p : Participant} (keeps : p.space.Keeps (H node)) :
    p.space.stateOf? uuid ≠ some .committed := by
  intro stored
  obtain ⟨d, mem, same, committed⟩ := keeps.stateOf?_eq_some.1 stored
  rcases pending.each node called with ⟨start, -⟩ | ⟨e, shape, -, state⟩
  · rw [start] at mem
    exact pending.fresh node d mem same
  · rw [shape] at mem
    rcases List.mem_cons.1 mem with rfl | mem
    · rw [committed] at state
      exact state.elim nofun nofun
    · exact pending.fresh node d mem same

/-- What a change pass left behind on its nodes. -/
theorem Coordinated.left_behind {nodes : List (Address × LogicalState)} {asked : List Address}
    {sender : Sender} {uuid : Uuid} {change : Change} {before after : Fleet}
    {trace : List (Unit × Event)} {H₀ : Histories} (records₀ : before.Records H₀)
    (sturdy₀ : before.Sturdy H₀) (fresh : ∀ node, ∀ d ∈ H₀ node, d.uuid ≠ uuid)
    (called : ∀ node ∈ asked, node ∈ nodes.map (·.1))
    (run : Coordinated (fun _ : Unit => .change sender uuid nodes change) before trace after)
    (timed : ∀ call ∈ trace, call.2.At Timestamp.Storable) :
    ∃ H, after.Records H ∧ after.Sturdy H ∧ Interrupted asked uuid H₀ H := by
  obtain ⟨H, unfolds, records, sturdy⟩ := run.unfolds records₀
  have interrupted := unfolds.interrupted fresh
  exact ⟨H, records, sturdy (fun call mem => (timed call mem).mono fun _ => (·.legible)) sturdy₀,
    fresh, interrupted.each, fun committed node mem =>
      interrupted.together committed node (called node mem)⟩

/-- A node whose chain was full has taken part in the change, and cannot show its chain any more. -/
def Fleet.Overfull (f : Fleet) (before : Snapshots) (uuid : Uuid) : Prop :=
  ∃ entry ∈ before, entry.2.lineage.length = chainLimit ∧ ∃ p, f.member? entry.1 = some p ∧
    (∃ state, p.space.stateOf? uuid = some state) ∧
    p.discover = .error (.corrupted "change chain loops")

/-- One more change is too much for a chain only if the chain was full. -/
theorem Interrupted.overfull {after : Fleet} {nodes asked : List Address} {uuid : Uuid}
    {H₀ H : Histories} {before : Snapshots} (interrupted : Interrupted asked uuid H₀ H)
    (records : after.Records H) (sturdy : after.Sturdy H) (shown : before.Show nodes H₀)
    (bounded : ∀ node ∈ nodes, (H₀ node).length ≤ chainLimit) {node : Address}
    (called : node ∈ nodes) {p : Participant} (member : after.member? node = some p)
    (long : chainLimit < (H node).length) : after.Overfull before uuid := by
  have full := bounded node called
  obtain ⟨entry, found, rfl⟩ := shown.entry_mem called
  rcases interrupted.each entry.1 with start | ⟨d, shape, same⟩
  · rw [start] at long
    omega
  · have stored : p.space.stateOf? uuid = some d.state :=
      (records.keeps member).stateOf?_eq_some.2
        ⟨d, shape ▸ List.mem_cons_self, same, rfl⟩
    refine ⟨entry, found, ?_, p, member, ⟨_, stored⟩, ?_⟩
    · rw [(shown.shows entry found).lineage, History.entries, List.length_map]
      rw [shape, List.length_cons] at long
      omega
    · exact Participant.discover_of_long (records.keeps member) (records.sound member)
        (sturdy.legible member) long

theorem Interrupted.overfull_or_short {after : Fleet} {nodes asked : List Address} {uuid : Uuid}
    {H₀ H : Histories} {before : Snapshots} (interrupted : Interrupted asked uuid H₀ H)
    (records : after.Records H) (sturdy : after.Sturdy H) (shown : before.Show nodes H₀)
    (bounded : ∀ node ∈ nodes, (H₀ node).length ≤ chainLimit)
    (members : ∀ node ∈ nodes, ∃ p, after.member? node = some p) :
    after.Overfull before uuid ∨ ∀ node ∈ nodes, (H node).length ≤ chainLimit := by
  by_cases long : ∃ node ∈ nodes, chainLimit < (H node).length
  · obtain ⟨node, called, long⟩ := long
    obtain ⟨p, member⟩ := members node called
    exact .inl (interrupted.overfull records sturdy shown bounded called member long)
  · exact .inr fun node called => Nat.not_lt.1 fun more => long ⟨node, called, more⟩

/-- Once an interrupted change pass is over and no call fails any more, a repair that finds its own
way ends without an error, unless the change was one too many for the chain of a node. If some node
had committed the change, all nodes have then; and if none had, they are where they were before the
pass. -/
theorem Coordinated.repair_converges {nodes : List (Address × LogicalState)} {sender : Sender}
    {uuid : Uuid} {change : Change} {before after : Fleet} {trace : List (Unit × Event)}
    {snapshots : Snapshots} {version : Nat} {head : Option Uuid}
    (reached : ∀ node p, before.member? node = some p → p.Reached ∧ p.store.InMemory)
    (distinct : (nodes.map (·.1)).Nodup)
    (discovered : before.Discovered (nodes.map (·.1)) snapshots)
    (consistent : analyze snapshots = .consistent version head)
    (fresh : ∀ entry ∈ snapshots, ∀ e ∈ entry.2.lineage, e.uuid ≠ uuid)
    (run : Coordinated (fun _ : Unit => .change sender uuid nodes change) before trace after)
    (timed : ∀ call ∈ trace, call.2.At Timestamp.Storable)
    (agree : ∀ node p, after.member? node = some p → ∀ l ∈ p.processor.listeners, l.Agrees)
    {states : List (Address × LogicalState)} (same : (states.map (·.1)).Perm (nodes.map (·.1)))
    (online : ∀ entry ∈ states, entry.2.isOnline = true) (operator : Sender)
    (patience : Patience) {clock : Clock} (storable : ∀ n, (clock n).Storable) (later : Clock) :
    after.Overfull snapshots uuid ∨ ∃ outcome mended final,
      (onlineRepairPass operator states none).run patience clock after.clearFaults =
        (mended, .ok outcome) ∧
      ((Pass.check (states.map (·.1))).run patience later mended).2 = ⟨final, []⟩ ∧
      final.map (·.1) = states.map (·.1) ∧
      ((∃ node p, after.member? node = some p ∧ p.space.stateOf? uuid = some .committed) →
        final.Settled (version + 1) (some uuid)) ∧
      (¬ (∃ node p, after.member? node = some p ∧ p.space.stateOf? uuid = some .committed) →
        final.Settled version head ∧ ∀ node ∈ states.map (·.1), ∀ p,
          mended.member? node = some p → p.space.stateOf? uuid ≠ some .committed) := by
  obtain ⟨H₀, records₀, sturdy₀, shown₀, bounded₀, absent⟩ := discovered.histories (reached _ _)
  have fresh₀ : ∀ node, ∀ d ∈ H₀ node, d.uuid ≠ uuid := by
    intro node d mem
    by_cases inside : node ∈ nodes.map (·.1)
    · exact shown₀.fresh fresh node inside d mem
    · rw [absent node inside] at mem
      cases mem
  -- the repair goes over the nodes of the pass
  have called : ∀ node, node ∈ states.map (·.1) ↔ node ∈ nodes.map (·.1) :=
    fun _ => same.mem_iff
  have level₀ : H₀.Level (states.map (·.1)) version head := fun node mem =>
    shown₀.level_of_analyze consistent node ((called node).1 mem)
  have nonempty : states.map (·.1) ≠ [] := by
    intro none
    rw [none] at same
    exact shown₀.nonempty consistent same.nil_eq.symm
  obtain ⟨H, records, sturdy, interrupted⟩ := run.left_behind records₀ sturdy₀ fresh₀
    (fun node mem => (called node).1 mem) timed
  have members : ∀ node ∈ nodes.map (·.1), ∃ p, after.member? node = some p := fun node mem =>
    Option.isSome_iff_exists.1 ((run.member node).trans (discovered.member node mem))
  rcases interrupted.overfull_or_short records sturdy shown₀ bounded₀ members with
    overfull | short
  · exact .inl overfull
  right
  have healthy : after.clearFaults.Healthy H (states.map (·.1)) :=
    ⟨rfl, ⟨records.keeps, records.sound⟩, ⟨sturdy.memory, sturdy.legible⟩,
      fun node mem => members node ((called node).1 mem),
      fun node mem => short node ((called node).1 mem), fun member _ => agree _ _ member⟩
  have committed : (∃ node p, after.member? node = some p ∧
      p.space.stateOf? uuid = some .committed) ↔ _ := healthy.committed_iff fun member => by
    obtain ⟨q, member₀⟩ := run.member_before member
    exact (called _).2 (discovered.only member₀)
  have allOnline : filterOnline states = states := List.filter_eq_self.2 online
  rw [onlineRepairPass, allOnline]
  have readable : ∀ n, (clock n).Legible := fun n => (storable n).legible
  by_cases done : ∃ node p, after.member? node = some p ∧ p.space.stateOf? uuid = some .committed
  · have pending := interrupted.pending.1 (committed.1 done)
    obtain ⟨outcome, mended, H', ended, healthy, -, level⟩ := healthy.repair_level pending level₀
      (same.nodup_iff.2 distinct) nonempty operator patience readable
    obtain ⟨final, shown, report, -⟩ := healthy.check patience later
    exact ⟨outcome, mended, final, ended, report, shown.nodes,
      fun _ => shown.settled nonempty level, fun none => absurd done none⟩
  · have pending := interrupted.pending.2 fun recorded => done (committed.2 recorded)
    obtain ⟨outcome, mended, H', ended, healthy, pending, level⟩ := healthy.repair_level pending
      level₀ (same.nodup_iff.2 distinct) nonempty operator patience readable
    obtain ⟨final, shown, report, -⟩ := healthy.check patience later
    exact ⟨outcome, mended, final, ended, report, shown.nodes, fun recorded => absurd recorded done,
      fun _ => ⟨shown.settled nonempty level, fun node mem p member =>
        pending.not_committed mem (healthy.records.keeps member)⟩⟩

/-! ## Two nodes that no commit message reached -/

theorem Participant.discover_blank (name : String) :
    ∃ s, (blank name).discover = .ok s ∧ s.Shows [] := by
  have keeps := (start_keeps (show Store.empty.space = ∅ from rfl) (start_blank name)).1
  have legible : (blank name).space.Legible [] := ⟨⟨none, rfl⟩, by simp⟩
  obtain ⟨s, found⟩ := (discover_eq_ok_iff keeps .nil).2 ⟨legible, Nat.zero_le _⟩
  exact ⟨s, found, shows_of_discover keeps .nil found⟩

theorem Fleet.cutOff_discovered : ∃ snapshots : Snapshots,
    cutOff.Discovered [⟨"a:1"⟩, ⟨"b:1"⟩] snapshots ∧
      snapshots.Show [⟨"a:1"⟩, ⟨"b:1"⟩] fun _ => [] := by
  obtain ⟨s, foundS, showsS⟩ := Participant.discover_blank "a"
  obtain ⟨t, foundT, showsT⟩ := Participant.discover_blank "b"
  refine ⟨[(⟨"a:1"⟩, s), (⟨"b:1"⟩, t)], ⟨fun member => ?_, rfl, ?_⟩, ⟨rfl, ?_⟩⟩
  · rcases pair_member member with ⟨rfl, -⟩ | ⟨rfl, -⟩ <;> simp
  · simp only [List.mem_cons, List.not_mem_nil, or_false, forall_eq_or_imp, forall_eq]
    exact ⟨⟨_, rfl, foundS⟩, ⟨_, rfl, foundT⟩⟩
  · simp only [List.mem_cons, List.not_mem_nil, or_false, forall_eq_or_imp, forall_eq]
    exact ⟨showsS, showsT⟩

theorem Coordinated.cutOff_repair_converges : ∃ outcome mended final,
    (onlineRepairPass ⟨"west", "ops"⟩ [(⟨"b:1"⟩, .active), (⟨"a:1"⟩, .passive)] none).run
      ⟨⟨1000⟩, ⟨1000⟩⟩ .everySecond Fleet.cutOffEnd.clearFaults =
        (mended, .ok outcome) ∧
    ((Pass.check [⟨"b:1"⟩, ⟨"a:1"⟩]).run ⟨⟨1000⟩, ⟨1000⟩⟩ .everySecond
      mended).2 = ⟨final, []⟩ ∧ final.Settled 0 none := by
  obtain ⟨trace, run, timed⟩ := cutOff_run
  obtain ⟨snapshots, discovered, shown⟩ := Fleet.cutOff_discovered
  have ended : ∀ node p, Fleet.cutOffEnd.member? node = some p →
      p.processor.listeners = [] ∧ p.space.stateOf? ⟨.replicate 32 1⟩ ≠ some .committed := by
    have both : ∀ node ∈ [(⟨"a:1"⟩ : Address), ⟨"b:1"⟩],
        (Fleet.cutOffEnd.member? node).all (fun p => p.processor.listeners.isEmpty &&
          p.space.stateOf? ⟨.replicate 32 1⟩ != some .committed) = true := by decide +kernel
    intro node p member
    obtain ⟨q, member₀⟩ := run.member_before member
    simpa [member] using both node (discovered.only member₀)
  have same : ([(⟨"b:1"⟩, .active), (⟨"a:1"⟩, .passive)].map
      fun entry : Address × LogicalState => entry.1).Perm [⟨"a:1"⟩, ⟨"b:1"⟩] := by decide
  have blank : ∀ entry ∈ snapshots, entry.2.lineage = [] := fun entry mem =>
    (shown.shows entry mem).lineage
  have converged := repair_converges (fun node p member => by
      rcases Fleet.pair_member member with ⟨-, rfl⟩ | ⟨-, rfl⟩
      · exact ⟨.start rfl (Participant.start_blank "a"), ⟨_, rfl⟩⟩
      · exact ⟨.start rfl (Participant.start_blank "b"), ⟨_, rfl⟩⟩)
    (by decide) discovered
    (shown.analyze_of_level (by simp) fun node _ => ⟨rfl, rfl, rfl⟩)
    (fun entry mem e earlier => by
      rw [blank entry mem] at earlier
      cases earlier)
    run timed
    (fun node p member l mem => by
      rw [(ended node p member).1] at mem
      cases mem)
    same (by decide) ⟨"west", "ops"⟩ ⟨⟨1000⟩, ⟨1000⟩⟩ Clock.storable_everySecond .everySecond
  rcases converged with ⟨entry, mem, full, -⟩ | converged
  · rw [blank entry mem] at full
    cases full
  obtain ⟨outcome, mended, final, repaired, report, -, -, undone⟩ := converged
  refine ⟨outcome, mended, final, repaired, report, (undone ?_).1⟩
  rintro ⟨node, p, member, committed⟩
  exact (ended node p member).2 committed

end Reconfig
