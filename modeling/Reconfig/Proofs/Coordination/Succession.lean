/-
Concurrent changes of the same nodes.

A pass commits its change only when every node has prepared it, and a node that has
prepared a change takes no other before it has closed this one. So coordinators that
change the same nodes at the same time keep them together: no change is committed on
one node and rolled back on another, and of two nodes one is at most a single commit
ahead, with the very change that the other one still has in flight.
-/
import Reconfig.Proofs.Coordination.Resolution

namespace Reconfig

/-- What all nodes know of a committed change. -/
structure Commitment where
  uuid : Uuid
  version : Nat
  change : Change
  result : Cluster

def ChangeDetails.commitment (d : ChangeDetails) : Commitment :=
  ⟨d.uuid, d.version, d.change, d.result⟩

namespace History

/-- The identities of the committed changes, the newest first. -/
def committedUuids (h : History) : List Uuid := h.committed.map (·.uuid)

/-- No change is requested twice, and only the newest request may be in flight. -/
structure Tidy (h : History) : Prop where
  once : (h.map (·.uuid)).Nodup
  closed : ∀ e ∈ h.tail, e.state ≠ .prepared

/-- Whatever the other history has committed, this one holds and has not rolled back. -/
def Backs (g h : History) : Prop :=
  ∀ d ∈ h, d.state = .committed → ∃ e ∈ g, e.uuid = d.uuid ∧ e.state ≠ .rolledBack

/-- The history has committed the same changes as the other one, or also the one that
the other one has in flight. -/
def Ahead (h g : History) : Prop :=
  h.committedUuids = g.committedUuids ∨
    ∃ e below, g = e :: below ∧ e.state = .prepared ∧
      h.committedUuids = e.uuid :: g.committedUuids

theorem committedUuids_cons (d : ChangeDetails) (h : History) :
    committedUuids (d :: h) =
      if d.state = .committed then d.uuid :: h.committedUuids else h.committedUuids := by
  unfold committedUuids
  rw [committed_cons]
  split <;> rfl

theorem mem_committedUuids {h : History} {uuid : Uuid} :
    uuid ∈ h.committedUuids ↔ ∃ d ∈ h, d.uuid = uuid ∧ d.state = .committed := by
  simp only [committedUuids, committed, List.mem_map, List.mem_filter, beq_iff_eq]
  constructor
  · rintro ⟨d, ⟨mem, state⟩, same⟩
    exact ⟨d, mem, same, state⟩
  · rintro ⟨d, mem, same, state⟩
    exact ⟨d, ⟨mem, state⟩, same⟩

theorem Leads.closed_below {h h' : History} (leads : Leads h h')
    (closed : ∀ e ∈ h.tail, e.state ≠ .prepared) : ∀ e ∈ h'.tail, e.state ≠ .prepared := by
  induction leads with
  | refl => exact closed
  | @tail g _ _ step ih =>
    obtain ⟨limits, m, now, accepts⟩ := step
    cases accepts with
    | prepare _ idle =>
      intro e mem
      cases g with
      | nil => cases mem
      | cons d below =>
        rcases List.mem_cons.1 mem with rfl | mem
        · exact mode_eq_accepting_iff.1 idle _ rfl
        · exact ih e mem
    | close => exact ih

theorem Leads.tidy {h h' : History} (leads : Leads h h') (tidy : h.Tidy) : h'.Tidy :=
  ⟨leads.uuids_nodup tidy.once, leads.closed_below tidy.closed⟩

namespace Tidy

variable {h : History} {d e : ChangeDetails}

theorem eq_of_uuid (tidy : h.Tidy) (memD : d ∈ h) (memE : e ∈ h) (same : d.uuid = e.uuid) :
    d = e :=
  List.inj_on_of_nodup_map tidy.once memD memE same

theorem eq_cons_of_prepared (tidy : h.Tidy) (mem : e ∈ h) (inFlight : e.state = .prepared) :
    ∃ below, h = e :: below := by
  cases h with
  | nil => cases mem
  | cons d below =>
    rcases List.mem_cons.1 mem with rfl | mem
    · exact ⟨below, rfl⟩
    · exact absurd inFlight (tidy.closed e mem)

/-- A change that is in flight is not among the committed ones. -/
theorem not_mem_committedUuids {below : History} (tidy : Tidy (d :: below))
    (inFlight : d.state = .prepared) : d.uuid ∉ committedUuids (d :: below) := by
  intro mem
  obtain ⟨e, mem, same, committed⟩ := mem_committedUuids.1 mem
  have : e = d := tidy.eq_of_uuid mem List.mem_cons_self same
  rw [this, inFlight] at committed
  cases committed

end Tidy

section

variable {g below : History} {d : ChangeDetails}

/-- A node that commits a change which another node holds does not leave it behind. -/
theorem ahead_of_commit (tidy : Tidy (d :: below)) (tidyG : g.Tidy)
    (inFlight : d.state = .prepared)
    (held : ∃ e ∈ g, e.uuid = d.uuid ∧ e.state ≠ .rolledBack)
    (abreast : Ahead (d :: below) g ∨ Ahead g (d :: below)) :
    Ahead (d.inState .committed :: below) g ∨ Ahead g (d.inState .committed :: below) := by
  obtain ⟨e, mem, same, kept⟩ := held
  have new := tidy.not_mem_committedUuids inFlight
  have after : committedUuids (d.inState .committed :: below) =
      d.uuid :: committedUuids (d :: below) := by
    rw [committedUuids_cons, ChangeDetails.inState_state, if_pos rfl, committedUuids_cons,
      if_neg (by rw [inFlight]; decide)]
    rfl
  have level : committedUuids (d :: below) = g.committedUuids →
      Ahead (d.inState .committed :: below) g ∨ Ahead g (d.inState .committed :: below) := by
    intro level
    have open_ : e.state = .prepared := by
      cases state : e.state with
      | prepared => rfl
      | rolledBack => exact absurd state kept
      | committed =>
        have : d.uuid ∈ g.committedUuids := mem_committedUuids.2 ⟨e, mem, same, state⟩
        exact absurd (level ▸ this) new
    obtain ⟨rest, shape⟩ := tidyG.eq_cons_of_prepared mem open_
    left
    right
    refine ⟨e, rest, shape, open_, ?_⟩
    rw [after, level, same]
  rcases abreast with (same' | ⟨f, rest, shape, open_, more⟩) | (same' | ⟨f, rest, shape, -, more⟩)
  · exact level same'
  · -- the other node has another change in flight, and cannot hold this one
    have apart : d.uuid ≠ f.uuid := by
      intro one
      rw [more, one] at new
      exact new List.mem_cons_self
    exfalso
    cases state : e.state with
    | prepared =>
      have : e = f := by
        obtain ⟨rest', shape'⟩ := tidyG.eq_cons_of_prepared mem state
        exact (List.cons.inj (shape'.symm.trans shape)).1
      exact apart (this ▸ same.symm)
    | rolledBack => exact kept state
    | committed =>
      have : d.uuid ∈ g.committedUuids := mem_committedUuids.2 ⟨e, mem, same, state⟩
      rw [more] at new
      exact new (List.mem_cons_of_mem _ this)
  · exact level same'.symm
  · cases shape
    right
    left
    rw [more, after]

/-- A node rolls back a change only where no other node has committed it. -/
theorem ahead_of_rollback (tidy : Tidy (d :: below)) (inFlight : d.state = .prepared)
    (backs : Backs (d.inState .rolledBack :: below) g)
    (abreast : Ahead (d :: below) g ∨ Ahead g (d :: below)) :
    Ahead (d.inState .rolledBack :: below) g ∨ Ahead g (d.inState .rolledBack :: below) := by
  have after : committedUuids (d.inState .rolledBack :: below) = committedUuids (d :: below) := by
    rw [committedUuids_cons, if_neg (by rw [ChangeDetails.inState_state]; decide),
      committedUuids_cons, if_neg (by rw [inFlight]; decide)]
  rcases abreast with ahead | same | ⟨f, rest, shape, -, more⟩
  · left
    unfold Ahead at ahead ⊢
    rw [after]
    exact ahead
  · right
    left
    rw [same, after]
  · cases shape
    have mem : d.uuid ∈ g.committedUuids := by
      rw [more]
      exact List.mem_cons_self
    obtain ⟨c, mem, same, committed⟩ := mem_committedUuids.1 mem
    obtain ⟨e, held, sameE, kept⟩ := backs c mem committed
    rcases List.mem_cons.1 held with rfl | held
    · exact absurd rfl kept
    · have : e = d :=
        tidy.eq_of_uuid (List.mem_cons_of_mem _ held) List.mem_cons_self (sameE.trans same)
      have once := (List.nodup_cons.1 tidy.once).1
      exact absurd (List.mem_map.2 ⟨e, held, by rw [this]⟩) once

/-- One message leaves two nodes abreast that back each other after it. -/
theorem Accepts.abreast {limits : Limits} {h h' : History} {m : Message} {now : Timestamp}
    (accepts : Accepts limits h m now h') (tidy : h.Tidy) (tidyG : g.Tidy)
    (backed : g.Backs h') (backs : h'.Backs g) (abreast : Ahead h g ∨ Ahead g h) :
    Ahead h' g ∨ Ahead g h' := by
  cases accepts with
  | @prepare _ m now result _ idle =>
    have after : committedUuids (h.request m result now :: h) = h.committedUuids := by
      have open_ : (h.request m result now).state ≠ .committed := nofun
      rw [committedUuids_cons, if_neg open_]
    unfold Ahead
    rw [after]
    rcases abreast with ahead | same | ⟨e, below, shape, inFlight, -⟩
    · exact .inl ahead
    · exact .inr (.inl same)
    · have := mode_eq_prepared_iff.2 ⟨e, below, shape, inFlight⟩
      rw [this] at idle
      cases idle
  | @close d below m now context target closing fence inFlight =>
    cases target with
    | prepared => exact absurd rfl (Message.target_ne_prepared closing)
    | committed =>
      have backed := backed (d.inState .committed) List.mem_cons_self (d.inState_state _)
      exact ahead_of_commit tidy tidyG inFlight backed abreast
    | rolledBack => exact ahead_of_rollback tidy inFlight backs abreast

end

theorem commitments_eq {h g : History}
    (agree : ∀ d ∈ h, ∀ e ∈ g, d.uuid = e.uuid → d.commitment = e.commitment)
    (same : h.map (·.uuid) = g.map (·.uuid)) :
    h.map (·.commitment) = g.map (·.commitment) := by
  induction h generalizing g with
  | nil =>
    rw [List.map_nil, eq_comm, List.map_eq_nil_iff] at same
    rw [same]
  | cons d h ih =>
    cases g with
    | nil => cases same
    | cons e g =>
      obtain ⟨first, rest⟩ := List.cons.inj same
      rw [List.map_cons, List.map_cons, agree d List.mem_cons_self e List.mem_cons_self first,
        ih (fun d memD e memE => agree d (List.mem_cons_of_mem _ memD) e
          (List.mem_cons_of_mem _ memE)) rest]

/-- The committed changes of one history, and at most one more above them. -/
theorem Ahead.commitments {h g : History} (ahead : h.Ahead g)
    (agree : ∀ d ∈ h, ∀ e ∈ g, d.uuid = e.uuid → d.commitment = e.commitment) :
    h.committed.map (·.commitment) = g.committed.map (·.commitment) ∨
      ∃ c, h.committed.map (·.commitment) = c :: g.committed.map (·.commitment) := by
  have mem : ∀ {k : History} {d}, d ∈ k.committed → d ∈ k := fun found =>
    (List.mem_filter.1 found).1
  rcases ahead with same | ⟨e, below, -, -, more⟩
  · left
    exact commitments_eq (fun d memD e memE => agree d (mem memD) e (mem memE)) same
  · right
    obtain ⟨d, rest, shape, -, more⟩ := List.map_eq_cons_iff.1 more
    refine ⟨d.commitment, ?_⟩
    rw [shape, List.map_cons, commitments_eq (fun c memC e memE => agree c ?_ e (mem memE)) more]
    refine mem ?_
    rw [shape]
    exact List.mem_cons_of_mem _ memC

end History

/-! ## Coordinators that change the same nodes -/

/-- The job is a change of these nodes, in any order and roles. -/
def Job.Changes (nodes : List Address) (job : Job) : Prop :=
  ∃ sender uuid roles change, job = .change sender uuid roles change ∧
    ∀ node, node ∈ roles.map (·.1) ↔ node ∈ nodes

namespace Unfolds

variable {ι : Type} [DecidableEq ι] {jobs : ι → Job} {H : Histories} {nodes : List Address}
  {trace : List (ι × Event)} {a b : Address}

theorem tidy (unfolds : Unfolds jobs (fun _ => []) trace H) (node : Address) :
    (H node).Tidy :=
  (unfolds.leads node).tidy ⟨List.nodup_nil, nofun⟩

/-- A closed request was closed by the pass of its change. -/
theorem closed_by_change (unfolds : Unfolds jobs (fun _ => []) trace H)
    (changes : ∀ i, (jobs i).Changes nodes) {d : ChangeDetails} (mem : d ∈ H a)
    (terminal : d.state ≠ .prepared) :
    ∃ i sender roles change context delivery answer,
      jobs i = .change sender d.uuid roles change ∧
      (∀ node, node ∈ roles.map (·.1) ↔ node ∈ nodes) ∧
      ((d.state = .committed ∧
          .sent a (.commit ⟨context, d.uuid⟩) delivery answer ∈ logOf i trace) ∨
        (d.state = .rolledBack ∧
          .sent a (.rollback ⟨context, d.uuid⟩) delivery answer ∈ logOf i trace)) := by
  rcases unfolds.closed mem terminal with start | ⟨i, m, now, answer, context, sent, closing⟩
  · cases start
  have logged := mem_logOf.2 sent
  have logs := unfolds.logs (List.ne_nil_of_mem logged)
  obtain ⟨sender, uuid, roles, change, job, same⟩ := changes i
  rw [job] at logs
  rcases Job.change_sent logs logged with ⟨p, rfl, -⟩ | ⟨_, rfl⟩ | ⟨_, rfl⟩
  · cases closing
  · simp only [Message.closing?, Option.some.injEq, Prod.mk.injEq] at closing
    obtain ⟨-, rfl, state⟩ := closing
    exact ⟨i, sender, roles, change, _, _, _, job, same, .inl ⟨state.symm, logged⟩⟩
  · simp only [Message.closing?, Option.some.injEq, Prod.mk.injEq] at closing
    obtain ⟨-, rfl, state⟩ := closing
    exact ⟨i, sender, roles, change, _, _, _, job, same, .inr ⟨state.symm, logged⟩⟩

/-- What one node has committed, every node has prepared, and none rolls back. -/
theorem backs (unfolds : Unfolds jobs (fun _ => []) trace H)
    (changes : ∀ i, (jobs i).Changes nodes)
    (distinct : ∀ i j uuid, (jobs i).change? = some uuid → (jobs j).change? = some uuid → i = j)
    (called : b ∈ nodes) : (H b).Backs (H a) := by
  intro d mem committed
  obtain ⟨i, sender, roles, change, context, delivery, answer, job, same, sent⟩ :=
    unfolds.closed_by_change changes mem (by rw [committed]; decide)
  rw [committed] at sent
  rcases sent with ⟨-, sent⟩ | ⟨impossible, -⟩
  swap
  · cases impossible
  have logs := unfolds.logs (List.ne_nil_of_mem sent)
  rw [job] at logs
  obtain ⟨prepared, none⟩ := Job.change_committed logs sent
  obtain ⟨p, delivery, answered, uuid⟩ := prepared b ((same b).2 called)
  have answered := mem_logOf.1 answered
  obtain ⟨now, rfl⟩ := unfolds.carried_of_answer answered
  obtain ⟨e, held, sameE⟩ := unfolds.carried_uuid answered
  refine ⟨e, held, sameE.trans uuid, fun rolledBack => ?_⟩
  obtain ⟨j, _, _, _, _, _, _, jobJ, -, sent⟩ :=
    unfolds.closed_by_change changes held (by rw [rolledBack]; decide)
  rw [rolledBack] at sent
  rcases sent with ⟨impossible, -⟩ | ⟨-, rollback⟩
  · cases impossible
  -- the two passes are of one change, so they are one, and it does not do both
  have one : i = j := by
    refine distinct i j d.uuid (by rw [job]; rfl) ?_
    rw [jobJ, sameE, uuid]
    rfl
  subst one
  exact none _ _ _ _ rollback

/-- Of two nodes, one has committed what the other has, or one change more. -/
theorem abreast (unfolds : Unfolds jobs (fun _ => []) trace H)
    (changes : ∀ i, (jobs i).Changes nodes)
    (distinct : ∀ i j uuid, (jobs i).change? = some uuid → (jobs j).change? = some uuid → i = j)
    (calledA : a ∈ nodes) (calledB : b ∈ nodes) :
    (H a).Ahead (H b) ∨ (H b).Ahead (H a) := by
  induction unfolds with
  | start => exact .inl (.inl rfl)
  | @call trace H H' i event earlier allowed evolves ih =>
    by_cases different : a = b
    · subst different
      exact .inl (.inl rfl)
    have now := earlier.call allowed evolves
    have backsA := now.backs (a := a) changes distinct calledB
    have backsB := now.backs (a := b) changes distinct calledA
    rcases evolves.cases_at a with sameA | ⟨limits, m, time, answer, rfl, accepts⟩
    · rcases evolves.cases_at b with sameB | ⟨limits, m, time, answer, rfl, accepts⟩
      · rw [sameA, sameB]
        exact ih
      · rw [sameA] at backsA backsB ⊢
        exact (accepts.abreast (earlier.tidy b) (earlier.tidy a) backsB backsA ih.symm).symm
    · have sameB : H' b = H b := by
        rcases evolves.cases_at b with same | ⟨_, _, _, _, event, -⟩
        · exact same
        · cases event
          exact absurd rfl different
      rw [sameB] at backsA backsB ⊢
      exact accepts.abreast (earlier.tidy a) (earlier.tidy b) backsA backsB ih

end Unfolds

/-! ## What the stores hold -/

theorem Fleet.records_of_unconfigured {start : Fleet}
    (unconfigured : ∀ node p, start.member? node = some p → ∃ name store processor,
      store.space = ∅ ∧ Participant.start name store processor = .ok p) :
    start.Records fun _ => [] := by
  refine ⟨fun {node p} member => ?_, fun _ => .nil⟩
  obtain ⟨name, store, processor, empty, started⟩ := unconfigured node p member
  exact (Participant.start_keeps empty started).1


/-- The committed changes that the chain of requests in the store consists of, the newest
first. -/
def KeySpace.Committed (space : KeySpace) (history : List Commitment) : Prop :=
  ∃ latest fuel entries, readOptional readUuid (space.text? Key.latest) = .ok latest ∧
    space.chain fuel latest = .ok entries ∧
    List.Forall₂ (fun entry c => entry.uuid = c.uuid ∧ entry.version = c.version ∧
      ∃ r, space.requestRecord? c.uuid = some r ∧
        r.read? RequestKey.operation Change.ofJson? (.missingOperation c.uuid) = .ok c.change ∧
        r.read? RequestKey.result Cluster.ofJson? (.missingResult c.uuid) = .ok c.result)
      (entries.filter (·.state == .committed)) history

theorem KeySpace.Keeps.committed {space : KeySpace} {h : History} {limits : Limits}
    (keeps : space.Keeps h) (sound : History.Sound limits h) :
    space.Committed (h.committed.map (·.commitment)) := by
  have chain := keeps.chain_suffix sound h.length [] rfl
  rw [if_pos (Nat.le_refl _)] at chain
  refine ⟨h.latest, h.length, h.entries, ?_, chain, ?_⟩
  · rw [keeps.text?_latest]
    cases h.latest <;> simp [readOptional, readUuid]
  · have shape : h.entries.filter (·.state == .committed) = h.committed.map (·.entry) := by
      rw [History.entries, List.filter_map, History.committed]
      rfl
    rw [shape, List.forall₂_map_left_iff, List.forall₂_map_right_iff]
    refine List.forall₂_same.2 fun d mem => ⟨rfl, rfl, d.toRecord, ?_, ?_, ?_⟩
    · exact keeps.requestRecord?_of_mem (List.mem_filter.1 mem).1
    · exact d.read?_operation _
    · exact d.read?_result _

/-- Whatever coordinators that change the same nodes do, if the nodes start unconfigured:
no change is committed on one node and rolled back on another, and of two nodes one has
committed the same changes as the other, or exactly one more. -/
theorem Coordinated.changes_stay_together {ι : Type} [DecidableEq ι] {jobs : ι → Job}
    {nodes : List Address} {start f : Fleet} {trace : List (ι × Event)}
    (unconfigured : ∀ node p, start.member? node = some p → ∃ name store processor,
      store.space = ∅ ∧ Participant.start name store processor = .ok p)
    (changes : ∀ i, (jobs i).Changes nodes)
    (distinct : ∀ i j uuid, (jobs i).change? = some uuid → (jobs j).change? = some uuid → i = j)
    (run : Coordinated jobs start trace f) {a b : Address} {p q : Participant}
    (calledA : a ∈ nodes) (calledB : b ∈ nodes)
    (memberA : f.member? a = some p) (memberB : f.member? b = some q) :
    (∀ uuid, ¬ (p.space.stateOf? uuid = some .committed ∧
      q.space.stateOf? uuid = some .rolledBack)) ∧
    ∃ ofA ofB, p.space.Committed ofA ∧ q.space.Committed ofB ∧
      (ofA = ofB ∨ (∃ c, ofA = c :: ofB) ∨ ∃ c, ofB = c :: ofA) := by
  obtain ⟨H, unfolds, records, -⟩ := run.unfolds (Fleet.records_of_unconfigured unconfigured)
  have keepsA := records.keeps memberA
  have keepsB := records.keeps memberB
  constructor
  · rintro uuid ⟨storedA, storedB⟩
    obtain ⟨d, memD, rfl, committed⟩ := keepsA.stateOf?_eq_some.1 storedA
    obtain ⟨c, memC, sameC, rolledBack⟩ := keepsB.stateOf?_eq_some.1 storedB
    obtain ⟨e, memE, sameE, kept⟩ := unfolds.backs changes distinct calledB d memD committed
    have : e = c := (unfolds.tidy b).eq_of_uuid memE memC (sameE.trans sameC.symm)
    exact kept (this ▸ rolledBack)
  · have agree : ∀ d ∈ H a, ∀ e ∈ H b, d.uuid = e.uuid → d.commitment = e.commitment := by
      intro d memD e memE same
      obtain ⟨aboveA, belowA, splitA⟩ := List.append_of_mem memD
      obtain ⟨aboveB, belowB, splitB⟩ := List.append_of_mem memE
      obtain ⟨version, change, result, -⟩ := unfolds.agree distinct (records.sound memberA)
        (records.sound memberB) splitA splitB same
      rw [ChangeDetails.commitment, ChangeDetails.commitment, same, version, change, result]
    refine ⟨_, _, keepsA.committed (records.sound memberA), keepsB.committed
      (records.sound memberB), ?_⟩
    rcases unfolds.abreast changes distinct calledA calledB with ahead | ahead
    · rcases ahead.commitments agree with same | more
      · exact .inl same
      · exact .inr (.inl more)
    · rcases ahead.commitments fun e memE d memD same => (agree d memD e memE same.symm).symm with
        same | more
      · exact .inl same.symm
      · exact .inr (.inr more)

/-! ## Two foundings of a cluster at the same time -/

/-- Two coordinators that both want to found a cluster on the two nodes. -/
def Job.rivalFoundations : Bool → Job
  | true => .foundation
  | false => .change ⟨"west", "ops"⟩ ⟨.replicate 32 2⟩ [(⟨"b:1"⟩, .active), (⟨"a:1"⟩, .passive)]
      Participant.founding

/-- The first coordinator stops after it has committed its change on one of the nodes. -/
theorem Coordinated.half_founded : ∃ trace f p q,
    Coordinated Job.rivalFoundations Fleet.pair trace f ∧
    f.member? ⟨"a:1"⟩ = some p ∧ f.member? ⟨"b:1"⟩ = some q ∧
    p.space.stateOf? ⟨.replicate 32 1⟩ = some .committed ∧
    q.space.stateOf? ⟨.replicate 32 1⟩ = some .prepared := by
  obtain ⟨asks, f, H, first, second, shown, healthy, held, served, -, -⟩ :=
    Fleet.pair_healthy.pair_prepared (fun _ => rfl) (.inl rfl)
  obtain ⟨d, shapeA, uuidD, openD⟩ := held ⟨"a:1"⟩ (by simp)
  obtain ⟨e, shapeB, uuidE, openE⟩ := held ⟨"b:1"⟩ (by simp)
  let now : Timestamp := ⟨2024, 1, 1, 0, 0, 1, 0⟩
  let commit : Message := .commit ⟨Sender.context ⟨"east", "ops"⟩ 1, ⟨.replicate 32 1⟩⟩
  have closing : commit.closing? =
      some (Sender.context ⟨"east", "ops"⟩ 1, d.uuid, .committed) := by
    rw [uuidD]
    rfl
  have knows : History.messages [d] = 1 := by
    rw [History.messages_cons, if_pos openD]
    rfl
  have memA : (⟨"a:1"⟩ : Address) ∈ [(⟨"a:1"⟩ : Address), ⟨"b:1"⟩] := by simp
  obtain ⟨third, -, serves⟩ := healthy.send_serves memA commit none now
  obtain ⟨accepted, healthy⟩ := healthy.close memA shapeA openD closing knows none
    (show now.Legible from Timestamp.Storable.legible (by decide))
  have course : (ChangePass.carryOut ⟨"east", "ops"⟩ ⟨.replicate 32 1⟩ 1 Participant.founding
      [(⟨"a:1"⟩, 0), (⟨"b:1"⟩, 0)]).Logs
      ([.sent ⟨"a:1"⟩ (.prepare Participant.foundingPrepare) first (.ok ()),
        .sent ⟨"b:1"⟩ (.prepare Participant.foundingPrepare) second (.ok ())] ++
        [.sent ⟨"a:1"⟩ commit third (.ok ())]) none := .sent (.sent (.sent .stopped))
  have logs : (Job.rivalFoundations true).Logs _ := @Job.changer_logs .committed _ _ shown course
  rw [← List.append_assoc] at logs
  have serves := serves _ (.inl rfl)
  rw [accepted] at serves
  have run : Coordinated Job.rivalFoundations Fleet.pair _ _ :=
    Coordinated.calls .start (served.append (.call serves .none)) logs
  obtain ⟨p, memberP⟩ := healthy.member ⟨"a:1"⟩ (by simp)
  obtain ⟨q, memberQ⟩ := healthy.member ⟨"b:1"⟩ (by simp)
  have keepsP := healthy.records.keeps memberP
  have keepsQ := healthy.records.keeps memberQ
  rw [Function.update_self] at keepsP
  rw [Function.update_of_ne (by decide), shapeB] at keepsQ
  exact ⟨_, _, p, q, run, memberP, memberQ,
    keepsP.stateOf?_eq_some.2 ⟨_, List.mem_cons_self, uuidD, rfl⟩,
    keepsQ.stateOf?_eq_some.2 ⟨_, List.mem_cons_self, uuidE, openE⟩⟩

theorem Coordinated.half_founding_stays_together : ∃ trace f p q ofA ofB,
    Coordinated Job.rivalFoundations Fleet.pair trace f ∧
    f.member? ⟨"a:1"⟩ = some p ∧ f.member? ⟨"b:1"⟩ = some q ∧
    p.space.stateOf? ⟨.replicate 32 1⟩ = some .committed ∧
    q.space.stateOf? ⟨.replicate 32 1⟩ = some .prepared ∧
    p.space.Committed ofA ∧ q.space.Committed ofB ∧
    (ofA = ofB ∨ (∃ c, ofA = c :: ofB) ∨ ∃ c, ofB = c :: ofA) := by
  obtain ⟨trace, f, p, q, run, memberA, memberB, stateA, stateB⟩ := half_founded
  have both : ∀ i, (Job.rivalFoundations i).Changes [⟨"a:1"⟩, ⟨"b:1"⟩] := by
    intro i
    cases i with
    | true => exact ⟨_, _, _, _, rfl, fun node => by simp⟩
    | false => exact ⟨_, _, _, _, rfl, fun node => by simp [or_comm]⟩
  obtain ⟨-, ofA, ofB, committedA, committedB, together⟩ :=
    changes_stay_together (fun node p member => by
        rcases Fleet.pair_member member with ⟨rfl, rfl⟩ | ⟨rfl, rfl⟩
        · exact ⟨"a", .empty, .new ⟨none⟩ [], rfl, Participant.start_blank "a"⟩
        · exact ⟨"b", .empty, .new ⟨none⟩ [], rfl, Participant.start_blank "b"⟩)
      both
      (fun i j uuid jobI jobJ => by
        cases i <;> cases j <;> cases jobI <;> cases jobJ <;> rfl)
      run (by simp) (by simp) memberA memberB
  exact ⟨trace, f, p, q, ofA, ofB, run, memberA, memberB, stateA, stateB,
    committedA, committedB, together⟩

end Reconfig
