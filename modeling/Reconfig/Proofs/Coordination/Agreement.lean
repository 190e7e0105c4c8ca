/-
Nodes that hold the same change hold it with the same content.

A pass prepares its change only where the nodes are level, and a node accepts it
only on the history that the pass was shown. So the histories below one change
have the same newest committed change, and by induction on their length they have
the same committed changes with the same results.
-/
import Reconfig.Proofs.Coordination.Provenance
import Reconfig.Proofs.Participant.Invariant

namespace Reconfig

/-- Limits decide whether a change is carried out, but not what comes of it. -/
theorem Change.apply_of_validate {change : Change} {current : Option Cluster} {limits : Limits}
    {result : Cluster} (valid : change.validate current limits = .ok result) :
    change.apply current = .ok result :=
  (Change.validate_eq_ok.1 valid).1

/-- The change that a job carries out. -/
def Job.change? : Job → Option Uuid
  | .change _ uuid _ _ => some uuid
  | .recovery .. => none

namespace History

theorem committed_eq_cons {h rest : History} {d : ChangeDetails} (shape : h.committed = d :: rest) :
    ∃ above below, h = above ++ d :: below ∧ History.committed below = rest := by
  obtain ⟨above, below, split, -, -, rest⟩ := List.filter_eq_cons_iff.1 shape
  exact ⟨above, below, split, rest⟩

end History

namespace Unfolds

variable {ι : Type} [DecidableEq ι] {jobs : ι → Job} {H : Histories} {trace : List (ι × Event)}
  {a b : Address} {limitsA limitsB : Limits}

/-- Requests of one change were made by one pass, on histories with one head. -/
theorem made_alike (unfolds : Unfolds jobs (fun _ => []) trace H)
    (distinct : ∀ i j uuid, (jobs i).change? = some uuid → (jobs j).change? = some uuid → i = j)
    {aboveA belowA aboveB belowB : History} {d e : ChangeDetails}
    (splitA : H a = aboveA ++ d :: belowA) (splitB : H b = aboveB ++ e :: belowB)
    (same : d.uuid = e.uuid) : d.version = e.version ∧ d.change = e.change ∧
      belowA.head = belowB.head := by
  rcases unfolds.made splitA with ⟨above₀, d₀, start, -⟩ |
    ⟨i, m, _, _, s, sentA, askedA, showsA, uuidA, versionA, changeA⟩
  · simp at start
  rcases unfolds.made splitB with ⟨above₀, d₀, start, -⟩ |
    ⟨j, n, _, _, t, sentB, askedB, showsB, uuidB, versionB, changeB⟩
  · simp at start
  have sentA := mem_logOf.2 sentA
  have sentB := mem_logOf.2 sentB
  have logsA := unfolds.logs (List.ne_nil_of_mem sentA)
  have logsB := unfolds.logs (List.ne_nil_of_mem sentB)
  obtain ⟨_, _, version, head, jobA, nextA, levelA, -⟩ := Job.of_prepare logsA sentA
  obtain ⟨_, _, _, _, jobB, nextB, levelB, -⟩ := Job.of_prepare logsB sentB
  have one : i = j := by
    refine distinct i j d.uuid ?_ ?_
    · rw [jobA, uuidA]
      rfl
    · rw [jobB, same, uuidB]
      rfl
  subst one
  have ⟨_, versionS, headS⟩ := levelA a s (mem_logOf.2 askedA)
  have ⟨_, versionT, headT⟩ := levelA b t (mem_logOf.2 askedB)
  have ⟨_, versionT', _⟩ := levelB b t (mem_logOf.2 askedB)
  have changes : m.change = n.change := by
    have := jobA.symm.trans jobB
    simp only [Job.change.injEq] at this
    exact this.2.2.2
  refine ⟨?_, ?_, ?_⟩
  · rw [versionA, versionB, nextA, nextB, ← versionT, versionT']
  · rw [changeA, changeB, changes]
  · rw [← showsA.committedHead, ← showsB.committedHead, headS, headT]

/-- Requests of one change have one content. -/
theorem agree (unfolds : Unfolds jobs (fun _ => []) trace H)
    (distinct : ∀ i j uuid, (jobs i).change? = some uuid → (jobs j).change? = some uuid → i = j)
    (soundA : History.Sound limitsA (H a)) (soundB : History.Sound limitsB (H b))
    {aboveA belowA aboveB belowB : History} {d e : ChangeDetails}
    (splitA : H a = aboveA ++ d :: belowA) (splitB : H b = aboveB ++ e :: belowB)
    (same : d.uuid = e.uuid) : d.version = e.version ∧ d.change = e.change ∧
      d.result = e.result ∧
      belowA.committed.map (·.uuid) = belowB.committed.map (·.uuid) := by
  induction size : belowA.length using Nat.strongRecOn
    generalizing aboveA belowA aboveB belowB d e with
  | _ size ih =>
  subst size
  obtain ⟨version, change, head⟩ := unfolds.made_alike distinct splitA splitB same
  -- the newest committed requests below are of one change, so the induction applies to them
  have ⟨topology, committed⟩ : belowA.topology = belowB.topology ∧
      belowA.committed.map (·.uuid) = belowB.committed.map (·.uuid) := by
    unfold History.head at head
    unfold History.topology
    cases shapeA : belowA.committed with
    | nil =>
      cases shapeB : belowB.committed with
      | nil => exact ⟨rfl, rfl⟩
      | cons e' restB => simp [shapeA, shapeB] at head
    | cons d' restA =>
      cases shapeB : belowB.committed with
      | nil => simp [shapeA, shapeB] at head
      | cons e' restB =>
        have uuid : d'.uuid = e'.uuid := by simpa [shapeA, shapeB] using head
        obtain ⟨midA, lowA, restSplitA, rfl⟩ := History.committed_eq_cons shapeA
        obtain ⟨midB, lowB, restSplitB, rfl⟩ := History.committed_eq_cons shapeB
        have shorter : lowA.length < belowA.length := by
          rw [restSplitA, List.length_append, List.length_cons]
          omega
        obtain ⟨-, -, result, below⟩ := ih lowA.length shorter
          (splitA.trans (by rw [restSplitA, ← List.cons_append, ← List.append_assoc]))
          (splitB.trans (by rw [restSplitB, ← List.cons_append, ← List.append_assoc])) uuid rfl
        exact ⟨congrArg some result, by simp [uuid, below]⟩
  refine ⟨version, change, ?_, committed⟩
  have applied : d.change.apply belowA.topology = .ok d.result := by
    rw [splitA] at soundA
    cases soundA.suffix with
    | cons _ _ _ _ _ valid => exact Change.apply_of_validate valid
  have applied' : e.change.apply belowB.topology = .ok e.result := by
    rw [splitB] at soundB
    cases soundB.suffix with
    | cons _ _ _ _ _ valid => exact Change.apply_of_validate valid
  rw [change, topology, applied'] at applied
  exact (Except.ok.inj applied).symm

end Unfolds

/-! ## What the stores hold -/

/-- The store holds a request with this content, and below it these committed ones. -/
def KeySpace.Holds (space : KeySpace) (uuid : Uuid) (version : Nat) (change : Change)
    (result : Cluster) (resultHash : String) (committed : List Uuid) : Prop :=
  ∃ r previous fuel entries, space.requestRecord? uuid = some r ∧
    r.requiredLong RequestKey.version uuid = .ok version ∧
    r.read? RequestKey.operation Change.ofJson? (.missingOperation uuid) = .ok change ∧
    r.read? RequestKey.result Cluster.ofJson? (.missingResult uuid) = .ok result ∧
    r.requiredText RequestKey.resultHash uuid = .ok resultHash ∧
    r.previous = .ok previous ∧ space.chain fuel previous = .ok entries ∧
    (entries.filter (·.state == .committed)).map (·.uuid) = committed

theorem KeySpace.Keeps.holds {space : KeySpace} {h above below : History} {limits : Limits}
    {d : ChangeDetails} (keeps : space.Keeps h) (sound : History.Sound limits h)
    (split : h = above ++ d :: below) :
    space.Holds d.uuid d.version d.change d.result d.result.hash
      (below.committed.map (·.uuid)) := by
  have mem : d ∈ h := by simp [split]
  have ⟨intact, previous⟩ : d.resultHash = d.result.hash ∧ d.previous = below.latest := by
    rw [split] at sound
    cases sound.suffix with
    | cons _ _ _ _ previous _ intact => exact ⟨intact, previous⟩
  have chain := keeps.chain_suffix sound below.length (above ++ [d])
    (show h = (above ++ [d]) ++ below by simp [split])
  rw [if_pos (Nat.le_refl _)] at chain
  refine ⟨d.toRecord, below.latest, below.length, below.entries, keeps.requestRecord?_of_mem mem,
    d.requiredLong_version _, d.read?_operation _, d.read?_result _, ?_, ?_, chain, ?_⟩
  · rw [d.requiredText_resultHash, intact]
  · rw [d.previous_toRecord, previous]
  · rw [History.entries, List.filter_map, List.map_map, History.committed]
    rfl

/-- Whatever coordinators do on nodes that start unconfigured, two nodes that store
one change store it with one content and over the same committed changes. -/
theorem Coordinated.contents_agree {ι : Type} [DecidableEq ι] {jobs : ι → Job}
    {start f : Fleet} {trace : List (ι × Event)}
    (unconfigured : ∀ node p, start.member? node = some p → ∃ name store processor,
      store.space = ∅ ∧ Participant.start name store processor = .ok p)
    (distinct : ∀ i j uuid, (jobs i).change? = some uuid → (jobs j).change? = some uuid → i = j)
    (run : Coordinated jobs start trace f) {a b : Address} {p q : Participant} {uuid : Uuid}
    (memberA : f.member? a = some p) (memberB : f.member? b = some q)
    (storedA : (p.space.requestRecord? uuid).isSome)
    (storedB : (q.space.requestRecord? uuid).isSome) :
    ∃ version change result committed,
      p.space.Holds uuid version change result result.hash committed ∧
      q.space.Holds uuid version change result result.hash committed := by
  have records : start.Records fun _ => [] := by
    constructor
    · intro node p member
      obtain ⟨name, store, processor, empty, started⟩ := unconfigured node p member
      exact (Participant.start_keeps empty started).1
    · exact fun _ => .nil
  obtain ⟨H, unfolds, records, -⟩ := run.unfolds records
  obtain ⟨r, storedA⟩ := Option.isSome_iff_exists.1 storedA
  obtain ⟨t, storedB⟩ := Option.isSome_iff_exists.1 storedB
  obtain ⟨d, memA, rfl, -⟩ := (records.keeps memberA).mem_of_requestRecord? storedA
  obtain ⟨e, memB, same, -⟩ := (records.keeps memberB).mem_of_requestRecord? storedB
  obtain ⟨aboveA, belowA, splitA⟩ := List.append_of_mem memA
  obtain ⟨aboveB, belowB, splitB⟩ := List.append_of_mem memB
  obtain ⟨version, change, result, committed⟩ := unfolds.agree distinct (records.sound memberA)
    (records.sound memberB) splitA splitB same.symm
  refine ⟨d.version, d.change, d.result, _,
    (records.keeps memberA).holds (records.sound memberA) splitA, ?_⟩
  rw [← same, version, change, result, committed]
  exact (records.keeps memberB).holds (records.sound memberB) splitB

/-- Two new nodes. -/
def Fleet.pair : Fleet :=
  Fleet.empty.addNode ⟨"a:1"⟩ (.blank "a") .passive |>.addNode ⟨"b:1"⟩ (.blank "b") .active

theorem Fleet.pair_member {node : Address} {p : Participant}
    (member : Fleet.pair.member? node = some p) :
    node = ⟨"a:1"⟩ ∧ p = .blank "a" ∨ node = ⟨"b:1"⟩ ∧ p = .blank "b" := by
  obtain ⟨text⟩ := node
  simp only [pair, addNode, member?, empty, Dict.get?_insert] at member
  split at member
  · rename_i same
    exact .inr ⟨congrArg Address.mk same, (Option.some.inj member).symm⟩
  · split at member
    · rename_i same
      exact .inl ⟨congrArg Address.mk same, (Option.some.inj member).symm⟩
    · cases member

/-- The two nodes can be prepared, but no commit message reaches them. -/
def Fleet.cutOff : Fleet :=
  Fleet.pair.inject ⟨"a:1"⟩ .commit .unreachable |>.inject ⟨"b:1"⟩ .commit .unreachable

/-- The founding of a cluster on two nodes. -/
def Job.foundation : Job :=
  .change ⟨"east", "ops"⟩ ⟨.replicate 32 1⟩ [(⟨"a:1"⟩, .passive), (⟨"b:1"⟩, .active)]
    Participant.founding

/-- A call a second, from the first moment of a year on. -/
def Clock.everySecond : Clock := fun n => ⟨2024, 1, 1, n / 3600 % 24, n / 60 % 60, n % 60, 0⟩

theorem Clock.storable_everySecond (n : Nat) : (everySecond n).Storable where
  date := rfl
  year := show (0 : Int) ≤ 2024 ∧ (2024 : Int) ≤ 9999 by decide
  hour := Nat.mod_lt _ (by decide)
  minute := Nat.mod_lt _ (by decide)
  second := Nat.le_of_lt (Nat.mod_lt _ (by decide))
  nanos := Nat.pow_pos (by decide)

/-- The two nodes after the founding pass has come to its end. -/
def Fleet.cutOffEnd : Fleet :=
  ((changePass ⟨"east", "ops"⟩ ⟨.replicate 32 1⟩ [(⟨"a:1"⟩, .passive), (⟨"b:1"⟩, .active)]
    Participant.founding).run ⟨⟨1000⟩, ⟨1000⟩⟩ .everySecond cutOff).1

theorem Coordinated.cutOff_run : ∃ trace,
    Coordinated (fun _ : Unit => Job.foundation) Fleet.cutOff trace Fleet.cutOffEnd ∧
      ∀ call ∈ trace, call.2.At Timestamp.Storable := by
  obtain ⟨log, logs, served, timed⟩ := Pass.run_logs ⟨⟨1000⟩, ⟨1000⟩⟩ .everySecond
    (changePass ⟨"east", "ops"⟩ ⟨.replicate 32 1⟩ [(⟨"a:1"⟩, .passive), (⟨"b:1"⟩, .active)]
      Participant.founding) Fleet.cutOff
  have allowed : Job.foundation.Logs (logOf () [] ++ log) := ⟨_, logs⟩
  refine ⟨log.map ((), ·), Coordinated.calls .start served allowed, fun call mem => ?_⟩
  obtain ⟨event, made, rfl⟩ := List.mem_map.1 mem
  exact (timed event made).mono fun _ ⟨n, same⟩ => same ▸ Clock.storable_everySecond n

theorem Coordinated.cutOff_contents_agree : ∃ trace p q,
    Coordinated (fun _ : Unit => Job.foundation) Fleet.cutOff trace Fleet.cutOffEnd ∧
    Fleet.cutOffEnd.member? ⟨"a:1"⟩ = some p ∧ Fleet.cutOffEnd.member? ⟨"b:1"⟩ = some q ∧
    ∃ version change result committed,
      p.space.Holds ⟨.replicate 32 1⟩ version change result result.hash committed ∧
      q.space.Holds ⟨.replicate 32 1⟩ version change result result.hash committed := by
  obtain ⟨trace, run, -⟩ := cutOff_run
  have storedA : (Fleet.cutOffEnd.member? ⟨"a:1"⟩).any
      (fun p => (p.space.requestRecord? ⟨.replicate 32 1⟩).isSome) = true := by decide +kernel
  have storedB : (Fleet.cutOffEnd.member? ⟨"b:1"⟩).any
      (fun p => (p.space.requestRecord? ⟨.replicate 32 1⟩).isSome) = true := by decide +kernel
  obtain ⟨p, memberA, storedA⟩ := (Option.any_eq_true _ _).1 storedA
  obtain ⟨q, memberB, storedB⟩ := (Option.any_eq_true _ _).1 storedB
  refine ⟨_, p, q, run, memberA, memberB, contents_agree (fun node p member => ?_)
    (fun _ _ _ _ _ => rfl) run memberA memberB storedA storedB⟩
  rcases Fleet.pair_member member with ⟨rfl, rfl⟩ | ⟨rfl, rfl⟩
  · exact ⟨"a", .empty, .new ⟨none⟩ [], rfl, Participant.start_blank "a"⟩
  · exact ⟨"b", .empty, .new ⟨none⟩ [], rfl, Participant.start_blank "b"⟩

end Reconfig
