/-
A first start that is cut short.

A node that was told to activate itself does so when it first starts. Wherever its log is
cut after that, a later start finds a log and goes on from it, and nobody sends the messages
that are missing: the node has its topology only if nothing of the log was lost. Otherwise
it is a node without a topology, and it may hold the change for good.
-/
import Reconfig.Proofs.Service.Activation

namespace Reconfig
namespace Participant

open StartupOptions (framed_writes settled_writes)

/-- The topology is the result of the first change of the node, and is in effect. -/
structure FoundedOn (p : Participant) (c : Cluster) : Prop where
  committed : p.committedTopology = .ok (some c)
  effective : p.runtimeTopology = some c
  shown : ∃ s, p.discover = .ok s ∧ s.mode = .accepting ∧ s.currentVersion = 1

/-- The node has no topology. At most it holds a change that would bring one. -/
structure Unfounded (p : Participant) (uuid : Uuid) : Prop where
  committed : p.committedTopology = .ok none
  effective : p.runtimeTopology = none
  shown : ∃ s, p.discover = .ok s ∧ s.currentVersion = 0 ∧
    (s.mode = .accepting ∧ s.latestUuid = none ∨ s.mode = .prepared ∧ s.latestUuid = some uuid)

variable {o : StartupOptions} {c : Cluster} {now : Timestamp} {limits : Limits}
  {accepted : List Prepare} {p : Participant} {h : History}

/-- What a node shows that is started over the store of another one. -/
theorem Settled.start_shows (settled : Settled limits accepted p h) (short : h.length ≤ chainLimit)
    (name : String) (processor : Processor) : ∃ q s, start name p.store processor = .ok q ∧
      q.committedTopology = .ok h.topology ∧ q.runtimeTopology = h.topology ∧
      q.discover = .ok s ∧ s.Shows h := by
  have started := settled.start_eq name processor
  have committed := settled.committedTopology_eq
  rw [if_pos short] at started committed
  obtain ⟨s, discovered⟩ := settled.discover_eq_ok short
  have shows := shows_of_discover settled.keeps (settled.limits ▸ settled.sound) discovered
  have same : (Participant.mk name p.store (processor.load h.topology)).store = p.store := rfl
  obtain ⟨discover, topology, -⟩ := queries_of_store same
  exact ⟨_, s, started, topology.trans committed, rfl, discover.trans discovered, shows⟩

/-- What a node shows that has activated itself. -/
theorem activated_shows (formed : c.checkStructure = .ok ())
    (afforded : c.checkCapacity o.limits = .ok ()) (storable : now.Storable)
    (small : ∀ w ∈ o.writes c now, w.toJson.bytes.length ≤ Frame.payloadLimit) :
    ∃ s, (o.activated c now).discover = .ok s ∧
      s.Shows [(o.request c now).inState .committed] ∧
      (o.activated c now).committedTopology = .ok (some c) := by
  have first := small (o.prepareWrites c now) (by simp [StartupOptions.writes])
  have second := small (o.commitWrites c now) (by simp [StartupOptions.writes])
  have holding := StartupOptions.settled_holding formed afforded storable first
  have settled := StartupOptions.settled_activated holding storable second
  have short : 1 ≤ chainLimit := by decide
  obtain ⟨s, discovered⟩ := settled.discover_eq_ok short
  exact ⟨s, discovered,
    shows_of_discover settled.keeps (settled.limits ▸ settled.sound) discovered,
    settled.committedTopology_eq.trans (if_pos short)⟩

theorem foundedOn_activated (formed : c.checkStructure = .ok ())
    (afforded : c.checkCapacity o.limits = .ok ()) (storable : now.Storable)
    (small : ∀ w ∈ o.writes c now, w.toJson.bytes.length ≤ Frame.payloadLimit) :
    (o.activated c now).FoundedOn c := by
  obtain ⟨s, discovered, shows, committed⟩ := activated_shows formed afforded storable small
  exact ⟨committed, rfl, s, discovered, shows.mode, shows.currentVersion⟩

/-- A start over some of the frames of an activation. -/
theorem start_over_writes (formed : c.checkStructure = .ok ())
    (afforded : c.checkCapacity o.limits = .ok ()) (storable : now.Storable) {j : Nat}
    (small : ∀ w ∈ (o.writes c now).take j, w.toJson.bytes.length ≤ Frame.payloadLimit)
    (few : j ≤ 3) (later : StartupOptions) : ∃ q,
      start later.name (.log (ChangeLog.empty.recordAll ((o.writes c now).take j)))
        (.new later.limits []) = .ok q ∧
      if j = 3 then q.FoundedOn c else q.Unfounded o.uuid := by
  by_cases none : j = 0
  · subst none
    obtain ⟨s, discovered⟩ := later.settled_fresh.discover_eq_ok (Nat.zero_le _)
    have shows := shows_of_discover later.settled_fresh.keeps .nil discovered
    exact ⟨later.fresh, later.start_fresh, rfl, rfl, s, discovered, shows.currentVersion,
      .inl ⟨shows.mode, shows.latest⟩⟩
  · obtain ⟨accepted, p, store, settled⟩ :=
      settled_writes formed afforded storable small (Nat.pos_of_ne_zero none) few
    have short : (o.history c now j).length ≤ chainLimit :=
      Nat.le_trans (StartupOptions.length_history_le j) (by decide)
    obtain ⟨q, s, started, committed, effective, discovered, shows⟩ :=
      settled.start_shows short later.name (.new later.limits [])
    rw [store] at started
    refine ⟨q, started, ?_⟩
    -- nothing is asked yet, the change is prepared, or it is committed
    obtain rfl | rfl | rfl : j = 1 ∨ j = 2 ∨ j = 3 := by omega
    · rw [if_neg (by decide)]
      exact ⟨committed, effective, s, discovered, shows.currentVersion,
        .inl ⟨shows.mode, shows.latest⟩⟩
    · rw [if_neg (by decide)]
      exact ⟨committed, effective, s, discovered, shows.currentVersion,
        .inr ⟨shows.mode, shows.latest⟩⟩
    · rw [if_pos rfl]
      exact ⟨committed, effective, s, discovered, shows.mode, shows.currentVersion⟩

end Participant

/-- A node that activated itself has its topology after a later start exactly if its log is still
whole. A log that lost any byte leaves it without a topology, whatever the later start is told. -/
theorem startNode_interrupted {o : StartupOptions} {d : Disk} {c : Cluster} {now : Timestamp}
    (blank : d.repository = none) (auto : o.autoActivate = true)
    (named : StartupStrategy.topology o d = .ok c) (formed : c.checkStructure = .ok ())
    (afforded : c.checkCapacity o.limits = .ok ()) (storable : now.Storable) :
    ∃ file outcome, startNode StartupStrategy.all o d now =
        ({ d with repository := some file }, outcome) ∧ file ≠ [] ∧
      (outcome.isOk = true ↔
        ∀ w ∈ o.writes c now, w.toJson.bytes.length ≤ Frame.payloadLimit) ∧
      (∀ s p, outcome = .ok (s, p) → s = .configFile ∧ p.FoundedOn c) ∧
      ∀ (n : Nat) (files : Settings.Files) (o' : StartupOptions) (later : Timestamp), ∃ q,
        (startNode StartupStrategy.all o' ⟨files, some (file.take n)⟩ later).2 =
          .ok (.existingRepository, q) ∧
        if outcome.isOk = true ∧ file.length ≤ n then q.FoundedOn c else q.Unfounded o.uuid := by
  obtain ⟨k, positive, few, small, store, failed, done⟩ :=
    StartupOptions.activate_cases (o := o) formed afforded storable
  have framed := StartupOptions.framed_writes formed afforded storable small
  have count : ((o.writes c now).take k).length = k := List.length_take_of_le few
  have file : (ChangeLog.empty.recordAll ((o.writes c now).take k)).file =
      (ChangeLog.empty.frames ((o.writes c now).take k)).flatMap Frame.bytes :=
    ChangeLog.file_recordAll .empty _
  have finished : ((o.fresh.activate o c now).2.map fun _ =>
      (StartupStrategy.configFile, (o.fresh.activate o c now).1)).isOk = true ↔ k = 3 := by
    by_cases whole : k = 3
    · simp only [done whole, whole, Outcome.map_ok, iff_true]
      rfl
    · obtain ⟨⟨e, error⟩, -⟩ := failed (by omega)
      simp only [error, whole, Outcome.map_error, iff_false]
      nofun
  refine ⟨(ChangeLog.empty.recordAll ((o.writes c now).take k)).file, _,
    (startNode_new blank auto named).trans (by rw [store]; rfl), ?_, ?_, ?_, ?_⟩
  · have filled := ChangeLog.length_le_file .empty ((o.writes c now).take k)
    rw [count] at filled
    intro none
    rw [none, List.length_nil] at filled
    omega
  · rw [finished]
    constructor
    · rintro rfl
      exact small
    · intro all
      by_contra part
      obtain ⟨-, w, mem, long⟩ := failed (by omega)
      exact absurd (all w mem) (Nat.not_le.2 long)
  · intro s p ok
    have whole := finished.1 (by rw [ok]; rfl)
    subst whole
    rw [done rfl] at ok
    cases ok
    exact ⟨rfl, Participant.foundedOn_activated formed afforded storable small⟩
  · intro n files o' later
    obtain ⟨j, within, whole, opened⟩ := ChangeLog.open_recorded _ framed (by omega) n
    have last := whole k (by omega)
    rw [List.take_of_length_le (Nat.le_of_eq count), ← file] at last
    rw [count] at within
    rw [List.take_take, Nat.min_eq_left within] at opened
    obtain ⟨q, started, founded⟩ := Participant.start_over_writes formed afforded storable
      (fun w mem => small w (List.take_subset_take_left _ within mem)) (by omega) o'
    refine ⟨q, by rw [startNode_existing opened started], ?_⟩
    have same : j = 3 ↔ k = 3 ∧
        (ChangeLog.empty.recordAll ((o.writes c now).take k)).file.length ≤ n := by
      omega
    simpa only [finished, same] using founded

/-! ## A node that founds its cluster alone -/

def clusterFile : Settings.Files := Dict.ofList [("cluster.json",
  "\x7b\"name\":\"c\",\"stripes\":[\x7b\"name\":\"s\",\"nodes\":[\x7b\"name\":\"n\"," ++
    "\"hostname\":\"h\",\"port\":1\x7d]\x7d]\x7d")]

def selfFounding : StartupOptions :=
  ⟨"n", ⟨none⟩, some "cluster", true, ⟨"east", "ops"⟩, ⟨.replicate 32 1⟩⟩

/-- The node founds its cluster, and goes on with it after a restart. But if nothing of the log was
left, it starts without a topology, though it is told once more to activate itself. -/
theorem selfFounding_interrupted : ∃ file p q r,
    startNode StartupStrategy.all selfFounding ⟨clusterFile, none⟩ Participant.noon =
      (⟨clusterFile, some file⟩, .ok (.configFile, p)) ∧
    p.FoundedOn Participant.foundedCluster ∧
    (startNode StartupStrategy.all selfFounding ⟨clusterFile, some file⟩ Participant.noon).2 =
      .ok (.existingRepository, q) ∧ q.FoundedOn Participant.foundedCluster ∧
    (startNode StartupStrategy.all selfFounding ⟨clusterFile, some []⟩ Participant.noon).2 =
      .ok (.existingRepository, r) ∧ r.Unfounded selfFounding.uuid := by
  have named : StartupStrategy.topology selfFounding ⟨clusterFile, none⟩ =
      .ok Participant.foundedCluster := by decide +kernel
  have light : ∀ w ∈ selfFounding.measured Participant.foundedCluster Participant.noon,
      w.toJson.weight ≤ 9000 := by decide +kernel
  have small : ∀ w ∈ selfFounding.writes Participant.foundedCluster Participant.noon,
      w.toJson.bytes.length ≤ Frame.payloadLimit := fun w mem =>
    Nat.le_trans (StartupOptions.length_writes_le light w mem) (by decide)
  obtain ⟨file, outcome, first, filled, finished, founded, later⟩ :=
    startNode_interrupted rfl rfl named (by decide) (by decide)
      (by decide : Participant.noon.Storable)
  have ok := finished.2 small
  cases outcome with
  | error e => cases ok
  | ok started =>
  obtain ⟨s, p⟩ := started
  obtain ⟨rfl, atOnce⟩ := founded s p rfl
  obtain ⟨q, whole, again⟩ := later file.length clusterFile selfFounding Participant.noon
  obtain ⟨r, none, lost⟩ := later 0 clusterFile selfFounding Participant.noon
  rw [if_pos ⟨ok, Nat.le_refl _⟩] at again
  rw [if_neg fun both => filled (List.length_eq_zero_iff.1 (Nat.le_zero.1 both.2))] at lost
  rw [List.take_length] at whole
  exact ⟨file, p, q, r, first, atOnce, whole, again, none, lost⟩

end Reconfig
