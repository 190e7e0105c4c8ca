/-
The calls that the passes make, in order.

A change pass asks all nodes, then prepares the change on one node after the
other, and then either commits it, once every node has prepared it, or rolls it
back, once a node has not. A recovery asks all nodes and then forces the change
on those that hold it.
-/
import Mathlib.Data.List.Forall2
import Reconfig.Proofs.Coordination.Calls
import Reconfig.Proofs.Coordination.Verdicts

namespace Reconfig

namespace Event

/-- The event is such a message to the target and was answered in such a way. -/
def Calls (message : Address × Nat → Message) (answered : Except CallError Unit → Prop)
    (target : Address × Nat) (event : Event) : Prop :=
  ∃ delivery answer, event = .sent target.1 (message target) delivery answer ∧ answered answer

theorem exists_target {message : Address × Nat → Message}
    {answered : Except CallError Unit → Prop} {targets : List (Address × Nat)} {log : List Event}
    (all : List.Forall₂ (Calls message answered) targets log) {event : Event}
    (mem : event ∈ log) : ∃ target ∈ targets, Calls message answered target event := by
  induction all with
  | nil => cases mem
  | @cons target first targets log call _ ih =>
    rcases List.mem_cons.1 mem with rfl | mem
    · exact ⟨target, List.mem_cons_self, call⟩
    · obtain ⟨other, called, call⟩ := ih mem
      exact ⟨other, List.mem_cons_of_mem _ called, call⟩

theorem exists_call {message : Address × Nat → Message}
    {answered : Except CallError Unit → Prop} {targets : List (Address × Nat)} {log : List Event}
    (all : List.Forall₂ (Calls message answered) targets log) {target : Address × Nat}
    (mem : target ∈ targets) : ∃ event ∈ log, Calls message answered target event := by
  induction all with
  | nil => cases mem
  | @cons first event targets log call _ ih =>
    rcases List.mem_cons.1 mem with rfl | mem
    · exact ⟨event, List.mem_cons_self, call⟩
    · obtain ⟨other, made, call⟩ := ih mem
      exact ⟨other, List.mem_cons_of_mem _ made, call⟩

end Event

namespace ChangePass

variable {sender : Sender} {uuid : Uuid} {version : Nat} {change : Change}
  {counts : List (Address × Nat)} {log : List Event}

def prepareTo (sender : Sender) (uuid : Uuid) (version : Nat) (change : Change)
    (target : Address × Nat) : Message :=
  .prepare ⟨sender.context target.2, uuid, version, change⟩

def commitTo (sender : Sender) (uuid : Uuid) (target : Address × Nat) : Message :=
  .commit ⟨sender.context target.2, uuid⟩

def rollbackTo (sender : Sender) (uuid : Uuid) (target : Address × Nat) : Message :=
  .rollback ⟨sender.context target.2, uuid⟩

/-- The messages of a change pass to nodes that have accepted so many messages. -/
inductive Course (sender : Sender) (uuid : Uuid) (version : Nat) (change : Change)
    (counts : List (Address × Nat)) : List Event → Prop
  | preparing {done rest : List (Address × Nat)} {prepares : List Event}
      (order : counts = done ++ rest)
      (prepared : List.Forall₂ (Event.Calls (prepareTo sender uuid version change) (· = .ok ()))
        done prepares) : Course sender uuid version change counts prepares
  | abandoned {done rest : List (Address × Nat)} {target : Address × Nat}
      {prepares rollbacks : List Event} {failed : Event} (order : counts = done ++ target :: rest)
      (prepared : List.Forall₂ (Event.Calls (prepareTo sender uuid version change) (· = .ok ()))
        done prepares)
      (failure : Event.Calls (prepareTo sender uuid version change) (∃ e, · = .error e)
        target failed)
      (closed : ∀ event ∈ rollbacks, ∃ target,
        Event.Calls (rollbackTo sender uuid) (fun _ => True) target event) :
      Course sender uuid version change counts (prepares ++ failed :: rollbacks)
  | committing {prepares commits : List Event}
      (prepared : List.Forall₂ (Event.Calls (prepareTo sender uuid version change) (· = .ok ()))
        counts prepares)
      (closed : ∀ event ∈ commits, ∃ target,
        Event.Calls (commitTo sender uuid) (fun _ => True) target event) :
      Course sender uuid version change counts (prepares ++ commits)

theorem Course.of_mem (course : Course sender uuid version change counts log) {event : Event}
    (mem : event ∈ log) :
    (∃ target ∈ counts,
      Event.Calls (prepareTo sender uuid version change) (fun _ => True) target event) ∨
    (∃ target, Event.Calls (rollbackTo sender uuid) (fun _ => True) target event) ∨
    (∃ target, Event.Calls (commitTo sender uuid) (fun _ => True) target event) := by
  have prepared : ∀ {done prepares : List _}, List.Forall₂
      (Event.Calls (prepareTo sender uuid version change) (· = .ok ())) done prepares →
      event ∈ prepares → ∃ target ∈ done,
        Event.Calls (prepareTo sender uuid version change) (fun _ => True) target event := by
    intro done prepares all mem
    obtain ⟨target, called, delivery, answer, same, -⟩ := Event.exists_target all mem
    exact ⟨target, called, delivery, answer, same, trivial⟩
  cases course with
  | preparing order all =>
    obtain ⟨target, called, call⟩ := prepared all mem
    exact .inl ⟨target, by rw [order]; exact List.mem_append_left _ called, call⟩
  | @abandoned done rest target _ _ _ order all failure closed =>
    rcases List.mem_append.1 mem with mem | mem
    · obtain ⟨target, called, call⟩ := prepared all mem
      exact .inl ⟨target, by rw [order]; exact List.mem_append_left _ called, call⟩
    · rcases List.mem_cons.1 mem with rfl | mem
      · obtain ⟨delivery, answer, same, -⟩ := failure
        exact .inl ⟨target, by simp [order], delivery, answer, same, trivial⟩
      · exact .inr (.inl (closed event mem))
  | committing all closed =>
    rcases List.mem_append.1 mem with mem | mem
    · exact .inl (prepared all mem)
    · exact .inr (.inr (closed event mem))

/-- A change is committed only after every node has prepared it, and then never
rolled back. -/
theorem Course.of_commit (course : Course sender uuid version change counts log)
    {node : Address} {m : Close} {delivery : Option (Timestamp × Answer)}
    {answer : Except CallError Unit} (mem : .sent node (.commit m) delivery answer ∈ log) :
    (∀ target ∈ counts, ∃ delivery, .sent target.1
      (prepareTo sender uuid version change target) delivery (.ok ()) ∈ log) ∧
    ∀ other m' delivery answer, .sent other (.rollback m') delivery answer ∉ log := by
  cases course with
  | preparing order all =>
    obtain ⟨_, -, _, _, same, -⟩ := Event.exists_target all mem
    cases same
  | abandoned order all failure closed =>
    rcases List.mem_append.1 mem with mem | mem
    · obtain ⟨_, -, _, _, same, -⟩ := Event.exists_target all mem
      cases same
    · rcases List.mem_cons.1 mem with rfl | mem
      · obtain ⟨_, _, same, -⟩ := failure
        cases same
      · obtain ⟨_, _, _, same, -⟩ := closed _ mem
        cases same
  | committing all closed =>
    refine ⟨fun target called => ?_, fun other m' delivery answer mem => ?_⟩
    · obtain ⟨_, mem, delivery, _, rfl, rfl⟩ := Event.exists_call all called
      exact ⟨delivery, List.mem_append_left _ mem⟩
    · rcases List.mem_append.1 mem with mem | mem
      · obtain ⟨_, -, _, _, same, -⟩ := Event.exists_target all mem
        cases same
      · obtain ⟨_, _, _, same, -⟩ := closed _ mem
        cases same

/-- A change is rolled back only after some node has failed to prepare it, and this
node is not called for it again. -/
theorem Course.of_rollback (course : Course sender uuid version change counts log)
    (distinct : (counts.map (·.1)).Nodup) {node : Address} {m : Close}
    {delivery : Option (Timestamp × Answer)} {answer : Except CallError Unit}
    (mem : .sent node (.rollback m) delivery answer ∈ log) :
    ∃ target ∈ counts, ∃ m delivery e, .sent target.1 (.prepare m) delivery (.error e) ∈ log ∧
      ∀ m delivery, .sent target.1 (.prepare m) delivery (.ok ()) ∉ log := by
  cases course with
  | preparing order all =>
    obtain ⟨_, -, _, _, same, -⟩ := Event.exists_target all mem
    cases same
  | @abandoned done rest target prepares rollbacks _ order all failure closed =>
    obtain ⟨delivery, answer, rfl, e, rfl⟩ := failure
    have absent : target.1 ∉ done.map (·.1) := by
      rw [order, List.map_append, List.map_cons] at distinct
      exact fun mem => (List.nodup_append.1 distinct).2.2 _ mem _ List.mem_cons_self rfl
    refine ⟨target, by simp [order], _, delivery, e,
      List.mem_append_right _ List.mem_cons_self, ?_⟩
    intro m delivery mem
    rcases List.mem_append.1 mem with mem | mem
    · obtain ⟨other, called, _, _, same, -⟩ := Event.exists_target all mem
      refine absent ?_
      rw [(Event.sent.inj same).1]
      exact List.mem_map_of_mem called
    · rcases List.mem_cons.1 mem with same | mem
      · cases same
      · obtain ⟨_, _, _, same, -⟩ := closed _ mem
        cases (Event.sent.inj same).2.1
  | committing all closed =>
    rcases List.mem_append.1 mem with mem | mem
    · obtain ⟨_, -, _, _, same, -⟩ := Event.exists_target all mem
      cases same
    · obtain ⟨_, _, _, same, -⟩ := closed _ mem
      cases same

theorem Course.not_isQuestion (course : Course sender uuid version change counts log) :
    ∀ event ∈ log, ¬ event.IsQuestion := by
  intro event mem
  rcases course.of_mem mem with ⟨_, _, _, _, rfl, -⟩ | ⟨_, _, _, rfl, -⟩ | ⟨_, _, _, rfl, -⟩ <;>
    exact id

theorem rollbackAll_logs {result : Option Unit}
    (logs : (rollbackAll sender uuid counts).Logs log result) : ∀ event ∈ log, ∃ target,
      Event.Calls (rollbackTo sender uuid) (fun _ => True) target event := by
  induction counts generalizing log with
  | nil =>
    cases logs <;> simp
  | cons target rest ih =>
    cases logs with
    | stopped => simp
    | sent more =>
      intro event mem
      rcases List.mem_cons.1 mem with rfl | later
      · exact ⟨target, _, _, rfl, trivial⟩
      · exact ih more event later

theorem commitAll_logs {failures : Failures} {result : Option Failures}
    (logs : (commitAll sender uuid failures counts).Logs log result) : ∀ event ∈ log, ∃ target,
      Event.Calls (commitTo sender uuid) (fun _ => True) target event := by
  induction counts generalizing log failures with
  | nil =>
    cases logs <;> simp
  | cons target rest ih =>
    cases logs with
    | stopped => simp
    | @sent _ _ _ delivery answer _ _ more =>
      intro event mem
      rcases List.mem_cons.1 mem with rfl | later
      · exact ⟨target, _, _, rfl, trivial⟩
      · cases answer with
        | ok => exact ih more event later
        | error e => exact ih more event later

theorem prepareAll_logs {prepared : List (Address × Nat)} {result : Option (Except Error Unit)}
    (logs : (prepareAll sender uuid version change prepared counts).Logs log result) :
    Course sender uuid version change counts log ∧ (result = some (.ok ()) →
      List.Forall₂ (Event.Calls (prepareTo sender uuid version change) (· = .ok ()))
        counts log) := by
  induction counts generalizing log prepared with
  | nil =>
    cases logs with
    | stopped => exact ⟨.preparing rfl .nil, by simp⟩
    | done => exact ⟨.preparing rfl .nil, fun _ => .nil⟩
  | cons target rest ih =>
    cases logs with
    | stopped => exact ⟨.preparing (List.nil_append _).symm .nil, by simp⟩
    | @sent _ _ _ delivery answer log _ more =>
      cases answer with
      | error e =>
        replace more : (rollbackAll sender uuid prepared >>= fun _ =>
            pure (.error (.prepareFailed target.1.text e.text))).Logs log result := more
        obtain ⟨begun, ended⟩ | ⟨_, first, second, begun, logs, rfl⟩ := Pass.Logs.of_bind more
        · refine ⟨?_, by simp [ended]⟩
          exact .abandoned (List.nil_append _).symm .nil ⟨_, _, rfl, e, rfl⟩
            (rollbackAll_logs begun)
        · have rest : second = [] ∧ result ≠ some (.ok ()) := by
            cases logs <;> simp
          refine ⟨?_, fun success => absurd success rest.2⟩
          rw [rest.1, List.append_nil]
          exact .abandoned (List.nil_append _).symm .nil ⟨_, _, rfl, e, rfl⟩
            (rollbackAll_logs begun)
      | ok =>
        have first : Event.Calls (prepareTo sender uuid version change) (· = .ok ()) target
            (.sent target.1 (prepareTo sender uuid version change target) delivery (.ok ())) :=
          ⟨_, _, rfl, rfl⟩
        obtain ⟨course, complete⟩ := ih more
        refine ⟨?_, fun success => .cons first (complete success)⟩
        cases course with
        | preparing order prepared =>
          exact .preparing ((congrArg _ order).trans (List.cons_append ..).symm)
            (.cons first prepared)
        | abandoned order prepared failure closed =>
          exact .abandoned ((congrArg _ order).trans (List.cons_append ..).symm)
            (.cons first prepared) failure closed
        | committing prepared closed => exact .committing (.cons first prepared) closed

theorem carryOut_logs {result : Option (Except Error Unit)}
    (logs : (carryOut sender uuid version change counts).Logs log result) :
    Course sender uuid version change counts log := by
  obtain ⟨begun, -⟩ | ⟨outcome, first, second, begun, more, rfl⟩ := Pass.Logs.of_bind logs
  · exact (prepareAll_logs begun).1
  · obtain ⟨course, complete⟩ := prepareAll_logs begun
    cases outcome with
    | error e =>
      have none : second = [] := by
        cases more <;> rfl
      rwa [none, List.append_nil]
    | ok =>
      obtain ⟨begun, -⟩ | ⟨failures, third, fourth, begun, last, rfl⟩ := Pass.Logs.of_bind more
      · exact .committing (complete rfl) (commitAll_logs begun)
      · have none : fourth = [] := by
          cases last <;> rfl
        rw [none, List.append_nil]
        exact .committing (complete rfl) (commitAll_logs begun)

end ChangePass

namespace RecoveryPass

def forceTo (sender : Sender) (uuid : Uuid) (state : ChangeState) (target : Address × Nat) :
    Message :=
  .force ⟨sender.context target.2, uuid, state⟩

theorem forceAll_logs {sender : Sender} {uuid : Uuid} {state : ChangeState}
    {forced : List Address} {failures : Failures} {counts : List (Address × Nat)}
    {log : List Event} {result : Option (List Address × Failures)}
    (logs : (forceAll sender uuid state forced failures counts).Logs log result) :
    ∀ event ∈ log, ∃ target,
      Event.Calls (forceTo sender uuid state) (fun _ => True) target event := by
  induction counts generalizing log forced failures with
  | nil =>
    cases logs <;> simp
  | cons target rest ih =>
    cases logs with
    | stopped => simp
    | @sent _ _ _ delivery answer _ _ more =>
      intro event mem
      rcases List.mem_cons.1 mem with rfl | later
      · exact ⟨target, _, _, rfl, trivial⟩
      · cases answer with
        | ok => exact ih more event later
        | error e => exact ih more event later

end RecoveryPass

/-! ## Whole passes -/

namespace Discovery

variable {nodes : List Address} {answers : List (Address × Except CallError Snapshot)}
  {asks log : List Event}

theorem mem_iff (round : Discovery nodes answers asks) {event : Event} :
    event ∈ asks ↔ ∃ answer ∈ answers, event = .asked answer.1 answer.2 := by
  rw [round.order.mem_iff, List.mem_map]
  exact ⟨fun ⟨answer, mem, same⟩ => ⟨answer, mem, same.symm⟩,
    fun ⟨answer, mem, same⟩ => ⟨answer, mem, same.symm⟩⟩

theorem isQuestion (round : Discovery nodes answers asks) : ∀ event ∈ asks, event.IsQuestion := by
  intro event mem
  obtain ⟨answer, -, rfl⟩ := round.mem_iff.1 mem
  trivial

theorem of_snapshots (snapshots : Snapshots) :
    Discovery (snapshots.map (·.1)) (snapshots.map fun entry => (entry.1, .ok entry.2))
      (snapshots.map fun entry => .asked entry.1 (.ok entry.2)) where
  all := by simp
  order := by
    rw [List.map_map]
    exact .refl _

theorem asked_iff (round : Discovery nodes answers asks) {sents : List Event}
    (sent : ∀ event ∈ sents, ¬ event.IsQuestion) {node : Address}
    {answer : Except CallError Snapshot} :
    .asked node answer ∈ asks ++ sents ↔ (node, answer) ∈ answers := by
  rw [List.mem_append, round.mem_iff]
  constructor
  · rintro (⟨⟨_, _⟩, mem, same⟩ | mem)
    · cases same
      exact mem
    · exact absurd trivial (sent _ mem)
  · exact fun mem => .inl ⟨_, mem, rfl⟩

end Discovery

/-- A change pass only asks, or has found all nodes ready. -/
theorem changePass_logs {sender : Sender} {uuid : Uuid} {nodes : List (Address × LogicalState)}
    {change : Change} {log : List Event} {result : Option (Except Error ChangeOutcome)}
    (logs : (changePass sender uuid nodes change).Logs log result) :
    (∀ event ∈ log, event.IsQuestion) ∨ ∃ answers asks sents version counts,
      Discovery (passivesFirst nodes) answers asks ∧
      (Report.ofAnswers answers).readyVersion = .ok version ∧
      (Report.ofAnswers answers).counts (passivesFirst nodes) = .ok counts ∧
      ChangePass.Course sender uuid version change counts sents ∧ log = asks ++ sents := by
  unfold changePass at logs
  dsimp only at logs
  split at logs
  · cases logs <;> simp
  · cases logs with
    | stopped => simp
    | asking round made => exact .inl fun event mem => round.isQuestion event (made.subset mem)
    | @asked _ _ answers asks sents _ round rest =>
      dsimp only [Pass.bind] at rest
      split at rest
      · left
        cases rest <;> simpa using round.isQuestion
      · rename_i version counts ready
        right
        obtain ⟨_, isReady, ready⟩ := Outcome.bind_eq_ok.1 ready
        obtain ⟨_, counted, ready⟩ := Outcome.bind_eq_ok.1 ready
        cases ready
        refine ⟨answers, asks, sents, version, counts, round, isReady, counted, ?_, rfl⟩
        obtain ⟨begun, -⟩ | ⟨outcome, first, second, begun, more, rfl⟩ := Pass.Logs.of_bind rest
        · exact ChangePass.carryOut_logs begun
        · have none : second = [] := by
            cases more <;> rfl
          rw [none, List.append_nil]
          exact ChangePass.carryOut_logs begun

/-- A recovery only asks, or has found that the change can be brought to the target. -/
theorem recoveryPass_logs {sender : Sender} {nodes : List Address} {target : ChangeState}
    {log : List Event} {result : Option (Except Error RecoveryOutcome)}
    (logs : (recoveryPass sender nodes target).Logs log result) :
    (∀ event ∈ log, event.IsQuestion) ∨ ∃ answers asks sents uuid, target ≠ .prepared ∧
      Discovery nodes answers asks ∧
      (Report.ofAnswers answers).recoveryPlan target = .ok (.resolve uuid) ∧
      (∀ event ∈ sents, ∃ node,
        Event.Calls (RecoveryPass.forceTo sender uuid target) (fun _ => True) node event) ∧
      log = asks ++ sents := by
  unfold recoveryPass at logs
  split at logs
  · cases logs <;> simp
  · rename_i closing
    cases logs with
    | stopped => simp
    | asking round made => exact .inl fun event mem => round.isQuestion event (made.subset mem)
    | @asked _ _ answers asks sents _ round rest =>
      dsimp only [Pass.bind] at rest
      split at rest
      · left
        cases rest <;> simpa using round.isQuestion
      · left
        cases rest <;> simpa using round.isQuestion
      · rename_i uuid plan
        right
        refine ⟨answers, asks, sents, uuid, closing, round, plan, ?_, rfl⟩
        obtain ⟨begun, -⟩ | ⟨outcome, first, second, begun, more, rfl⟩ := Pass.Logs.of_bind rest
        · exact RecoveryPass.forceAll_logs begun
        · have none : second = [] := by
            cases more <;> rfl
          rw [none, List.append_nil]
          exact RecoveryPass.forceAll_logs begun

/-! ## Whole logs -/

theorem perm_passivesFirst (nodes : List (Address × LogicalState)) :
    (passivesFirst nodes).Perm (nodes.map (·.1)) := by
  have split := List.filter_append_perm (fun entry : Address × LogicalState => entry.2.isActive)
    nodes
  exact (List.perm_append_comm.trans split).map _

theorem mem_passivesFirst {nodes : List (Address × LogicalState)} {node : Address} :
    node ∈ passivesFirst nodes ↔ node ∈ nodes.map (·.1) := (perm_passivesFirst nodes).mem_iff

namespace Job

variable {sender : Sender} {uuid : Uuid} {nodes : List (Address × LogicalState)}
  {change : Change} {log : List Event}

theorem change_sent (logs : (Job.change sender uuid nodes change).Logs log) {node : Address}
    {m : Message} {delivery : Option (Timestamp × Answer)} {answer : Except CallError Unit}
    (mem : .sent node m delivery answer ∈ log) :
    (∃ p, m = .prepare p ∧ p.uuid = uuid) ∨ (∃ context, m = .commit ⟨context, uuid⟩) ∨
      ∃ context, m = .rollback ⟨context, uuid⟩ := by
  obtain ⟨result, logs⟩ := logs
  rcases changePass_logs logs with questions | ⟨_, asks, sents, _, _, round, _, _, course, rfl⟩
  · exact (questions _ mem).elim
  · rcases List.mem_append.1 mem with mem | mem
    · exact (round.isQuestion _ mem).elim
    · rcases course.of_mem mem with ⟨_, -, _, _, same, -⟩ | ⟨_, _, _, same, -⟩ |
        ⟨_, _, _, same, -⟩
      · cases same
        exact .inl ⟨_, rfl, rfl⟩
      · cases same
        exact .inr (.inr ⟨_, rfl⟩)
      · cases same
        exact .inr (.inl ⟨_, rfl⟩)

theorem change_committed (logs : (Job.change sender uuid nodes change).Logs log)
    {node : Address} {m : Close} {delivery : Option (Timestamp × Answer)}
    {answer : Except CallError Unit} (mem : .sent node (.commit m) delivery answer ∈ log) :
    (∀ other ∈ nodes.map (·.1), ∃ p delivery,
      .sent other (.prepare p) delivery (.ok ()) ∈ log ∧ p.uuid = uuid) ∧
    ∀ other m' delivery answer, .sent other (.rollback m') delivery answer ∉ log := by
  obtain ⟨result, logs⟩ := logs
  rcases changePass_logs logs with questions |
    ⟨_, asks, sents, _, counts, round, _, counted, course, rfl⟩
  · exact (questions _ mem).elim
  · rcases List.mem_append.1 mem with mem | mem
    · exact (round.isQuestion _ mem).elim
    · obtain ⟨prepared, never⟩ := course.of_commit mem
      refine ⟨fun other called => ?_, fun other m' delivery answer mem => ?_⟩
      · rw [← mem_passivesFirst, ← (Report.of_counts counted).1, List.mem_map] at called
        obtain ⟨target, called, rfl⟩ := called
        obtain ⟨delivery, mem⟩ := prepared target called
        exact ⟨_, delivery, List.mem_append_right _ mem, rfl⟩
      · rcases List.mem_append.1 mem with mem | mem
        · exact (round.isQuestion _ mem).elim
        · exact never other m' delivery answer mem

theorem change_rolledBack (logs : (Job.change sender uuid nodes change).Logs log)
    (distinct : (nodes.map (·.1)).Nodup) {node : Address} {m : Close}
    {delivery : Option (Timestamp × Answer)} {answer : Except CallError Unit}
    (mem : .sent node (.rollback m) delivery answer ∈ log) :
    ∃ other ∈ nodes.map (·.1), ∃ m delivery e,
      .sent other (.prepare m) delivery (.error e) ∈ log ∧
      ∀ m delivery, .sent other (.prepare m) delivery (.ok ()) ∉ log := by
  obtain ⟨result, logs⟩ := logs
  rcases changePass_logs logs with questions |
    ⟨_, asks, sents, _, counts, round, _, counted, course, rfl⟩
  · exact (questions _ mem).elim
  · rcases List.mem_append.1 mem with mem | mem
    · exact (round.isQuestion _ mem).elim
    · have order := (Report.of_counts counted).1
      obtain ⟨target, called, m, delivery, e, failed, never⟩ := course.of_rollback
        (order ▸ (perm_passivesFirst nodes).nodup_iff.2 distinct) mem
      refine ⟨target.1, ?_, m, delivery, e, List.mem_append_right _ failed,
        fun m delivery mem => ?_⟩
      · rw [← mem_passivesFirst, ← order]
        exact List.mem_map_of_mem called
      · rcases List.mem_append.1 mem with mem | mem
        · exact (round.isQuestion _ mem).elim
        · exact never m delivery mem

end Job

/-! ## Recoveries -/

namespace Job

variable {sender : Sender} {nodes : List Address} {target : ChangeState} {log : List Event}

/-- A recovery forces a change on the nodes only after it has asked all of them, and
if none of those that answered has closed the change in another way. It commits a
change that none of them has committed only if all of them have it as their latest. -/
theorem recovery_sent (logs : (Job.recovery sender nodes target).Logs log) {node : Address}
    {m : Message} {delivery : Option (Timestamp × Answer)} {answer : Except CallError Unit}
    (mem : .sent node m delivery answer ∈ log) :
    ∃ uuid context, m = .force ⟨context, uuid, target⟩ ∧ target ≠ .prepared ∧
      (∀ other ∈ nodes, ∃ answer, .asked other answer ∈ log) ∧
      (∀ other s, .asked other (.ok s) ∈ log → ∀ closed, closed ≠ .prepared → closed ≠ target →
        s.stateOf? uuid ≠ some closed) ∧
      (target = .committed → (∃ other s, .asked other (.ok s) ∈ log ∧
        s.stateOf? uuid = some .committed) ∨
          ∀ other s, .asked other (.ok s) ∈ log → s.latestUuid = some uuid) := by
  obtain ⟨result, logs⟩ := logs
  rcases recoveryPass_logs logs with questions |
    ⟨answers, asks, sents, uuid, closing, round, plan, sent, rfl⟩
  · exact (questions _ mem).elim
  · have notQuestion : ∀ event ∈ sents, ¬ event.IsQuestion := by
      intro event mem
      obtain ⟨_, _, _, rfl, -⟩ := sent event mem
      exact id
    have snapshots : ∀ other s, .asked other (.ok s) ∈ asks ++ sents ↔
        (other, s) ∈ (Report.ofAnswers answers).responses := fun other s =>
      (round.asked_iff notQuestion).trans Report.mem_responses.symm
    have ⟨rollback, commit⟩ := Report.of_recoveryPlan plan
    rcases List.mem_append.1 mem with mem | mem
    · exact (round.isQuestion _ mem).elim
    · obtain ⟨_, _, _, same, -⟩ := sent _ mem
      cases same
      refine ⟨uuid, _, rfl, closing, fun other called => ?_, fun other s asked closed terminal
        different => ?_, fun commits => ?_⟩
      · rw [← round.all] at called
        obtain ⟨⟨_, answer⟩, found, rfl⟩ := List.mem_map.1 called
        exact ⟨answer, List.mem_append_left _ (round.mem_iff.2 ⟨_, found, rfl⟩)⟩
      · have response := (snapshots other s).1 asked
        cases target with
        | prepared => exact absurd rfl closing
        | committed =>
          cases closed with
          | prepared => exact absurd rfl terminal
          | committed => exact absurd rfl different
          | rolledBack => exact Analysis.recordedAs_eq_false.1 (commit rfl).1 _ response
        | rolledBack =>
          cases closed with
          | prepared => exact absurd rfl terminal
          | committed => exact Analysis.recordedAs_eq_false.1 (rollback rfl) _ response
          | rolledBack => exact absurd rfl different
      · obtain ⟨-, latest⟩ := commit commits
        cases seen : Analysis.recordedAs (Report.ofAnswers answers).responses uuid .committed with
        | true =>
          obtain ⟨⟨other, s⟩, response, recorded⟩ := Analysis.recordedAs_eq_true.1 seen
          exact .inl ⟨other, s, (snapshots other s).2 response, recorded⟩
        | false =>
          exact .inr fun other s asked => latest seen _ ((snapshots other s).1 asked)

theorem recovery_asked {node : Address} {answer : Except CallError Snapshot}
    (logs : (Job.recovery sender nodes target).Logs (log ++ [.asked node answer])) :
    ∀ event ∈ log, event.IsQuestion := by
  obtain ⟨result, logs⟩ := logs
  rcases recoveryPass_logs logs with questions | ⟨_, asks, sents, _, -, round, -, sent, split⟩
  · exact fun event mem => questions event (List.mem_append_left _ mem)
  · rcases List.eq_nil_or_concat sents with rfl | ⟨earlier, last, rfl⟩
    · rw [List.append_nil] at split
      intro event mem
      refine round.isQuestion event ?_
      rw [← split]
      exact List.mem_append_left _ mem
    · rw [List.concat_eq_append, ← List.append_assoc] at split
      have same := (List.append_inj' split rfl).2
      obtain ⟨_, _, _, shape, -⟩ := sent last (by simp)
      rw [shape] at same
      cases same

end Job
end Reconfig
