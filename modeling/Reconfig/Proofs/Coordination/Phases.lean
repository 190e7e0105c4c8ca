/-
What a change pass does when it runs on a fleet.

The pass asks the nodes, prepares the change on one after the other, and then either commits
it on all of them or rolls it back on those before the one that did not prepare it. Each of
these phases sends one message to each of its nodes, so it is told as one `Fleet.sendAll`.
-/
import Reconfig.Proofs.Coordination.Transcript

namespace Reconfig
namespace ChangePass

/-- The calls of one phase, by their answers. -/
def callsOf (phase : Phase) (answers : List (Address × Except CallError Unit)) : List Call :=
  answers.map fun entry => ⟨entry.1, phase, entry.2.isOk⟩

/-- What the commit phase reports of the answers. -/
def failuresOf (answers : List (Address × Except CallError Unit)) : List NodeFailure :=
  answers.filterMap fun entry =>
    match entry.2 with
    | .ok () => none
    | .error e => some ⟨entry.1, .commit, e⟩

/-- The nodes, each with the number of messages that it has accepted. -/
def targets (count : Address → Nat) (nodes : List Address) : List (Address × Nat) :=
  nodes.map fun node => (node, count node)

theorem targets_succ (count : Address → Nat) (nodes : List Address) :
    (targets count nodes).map (fun (node, count) => (node, count + 1)) =
      targets (count · + 1) nodes := by
  rw [targets, targets, List.map_map]
  rfl

section Messages

variable (sender : Sender) (uuid : Uuid) (version : Nat) (change : Change) (count : Address → Nat)

def prepareFor (node : Address) : Message :=
  prepareTo sender uuid version change (node, count node)

/-- A node that is to close the change has accepted one more message, its prepare message. -/
def rollbackFor (node : Address) : Message := rollbackTo sender uuid (node, count node + 1)

def commitFor (node : Address) : Message := commitTo sender uuid (node, count node + 1)

end Messages

variable (sender : Sender) (uuid : Uuid) (version : Nat) (change : Change) (count : Address → Nat)
  (patience : Patience) (clock : Clock)

theorem rollbackAll_run (f : Fleet) (nodes : List Address) :
    (rollbackAll sender uuid (targets (count · + 1) nodes)).run patience clock f =
        ((f.sendAll (rollbackFor sender uuid count) (some patience.call) clock nodes).1, ()) ∧
      (rollbackAll sender uuid (targets (count · + 1) nodes)).transcript patience clock f =
        callsOf .rollback
          (f.sendAll (rollbackFor sender uuid count) (some patience.call) clock nodes).2 := by
  induction nodes generalizing f with
  | nil => exact ⟨rfl, rfl⟩
  | cons node rest ih =>
    obtain ⟨run, transcript⟩ := ih (f.send node (rollbackFor sender uuid count node)
      (some patience.call) (clock f.calls.length)).1
    exact ⟨run, congrArg _ transcript⟩

theorem commitAll_run (f : Fleet) (failures : Failures) (nodes : List Address) :
    (commitAll sender uuid failures (targets (count · + 1) nodes)).run patience clock f =
        ((f.sendAll (commitFor sender uuid count) (some patience.call) clock nodes).1,
          ⟨failures.list ++ failuresOf
            (f.sendAll (commitFor sender uuid count) (some patience.call) clock nodes).2⟩) ∧
      (commitAll sender uuid failures (targets (count · + 1) nodes)).transcript patience clock f =
        callsOf .commit
          (f.sendAll (commitFor sender uuid count) (some patience.call) clock nodes).2 := by
  induction nodes generalizing f failures with
  | nil =>
    refine ⟨?_, rfl⟩
    show (f, failures) = (f, ⟨failures.list ++ []⟩)
    rw [List.append_nil]
  | cons node rest ih =>
    have unfolded : commitAll sender uuid failures (targets (count · + 1) (node :: rest)) =
        .send node (commitFor sender uuid count node) fun answer =>
          match answer with
          | .ok () => commitAll sender uuid failures (targets (count · + 1) rest)
          | .error e => commitAll sender uuid (failures.record node .commit e)
            (targets (count · + 1) rest) := rfl
    cases sent : f.send node (commitFor sender uuid count node) (some patience.call)
      (clock f.calls.length) with
    | mk g answer =>
    cases answer with
    | ok =>
      obtain ⟨run, transcript⟩ := ih g failures
      simp only [unfolded, Pass.run, Pass.transcript, Fleet.sendAll, sent]
      exact ⟨run, congrArg _ transcript⟩
    | error e =>
      obtain ⟨run, transcript⟩ := ih g (failures.record node .commit e)
      simp only [unfolded, Pass.run, Pass.transcript, Fleet.sendAll, sent]
      refine ⟨?_, congrArg _ transcript⟩
      rw [run, Failures.record, List.append_assoc]
      rfl

/-- How a prepare phase ends: every node prepares the change, or those before the first one
that does not are told to roll it back. -/
inductive Prepared (f : Fleet) (sender : Sender) (uuid : Uuid) (version : Nat) (change : Change)
    (count : Address → Nat) (patience : Patience) (clock : Clock) (earlier nodes : List Address) :
    Fleet → Except Error Unit → List Call → Prop
  | all {g : Fleet} {answers : List (Address × Except CallError Unit)}
      (told : f.sendAll (prepareFor sender uuid version change count) (some patience.call) clock
        nodes = (g, answers)) (accepted : ∀ entry ∈ answers, entry.2 = .ok ()) :
      Prepared f sender uuid version change count patience clock earlier nodes g (.ok ())
        (callsOf .prepare answers)
  | abandoned {first rest : List Address} {node : Address} {g h last : Fleet}
      {answers rollbacks : List (Address × Except CallError Unit)} {e : CallError}
      (split : nodes = first ++ node :: rest)
      (told : f.sendAll (prepareFor sender uuid version change count) (some patience.call) clock
        first = (g, answers)) (accepted : ∀ entry ∈ answers, entry.2 = .ok ())
      (refused : g.send node (prepareFor sender uuid version change count node)
        (some patience.call) (clock g.calls.length) = (h, .error e))
      (undone : h.sendAll (rollbackFor sender uuid count) (some patience.call) clock
        (earlier ++ first) = (last, rollbacks)) :
      Prepared f sender uuid version change count patience clock earlier nodes last
        (.error (.prepareFailed node.text e.text))
        (callsOf .prepare answers ++ ⟨node, .prepare, false⟩ :: callsOf .rollback rollbacks)

theorem prepareAll_cons (earlier : List Address) (node : Address) (rest : List Address) :
    prepareAll sender uuid version change (targets (count · + 1) earlier)
        (targets count (node :: rest)) =
      .send node (prepareFor sender uuid version change count node) fun answer =>
        match answer with
        | .ok () => prepareAll sender uuid version change
          (targets (count · + 1) (earlier ++ [node])) (targets count rest)
        | .error e => rollbackAll sender uuid (targets (count · + 1) earlier) >>= fun _ =>
          .done (.error (.prepareFailed node.text e.text)) := by
  rw [targets, targets, targets, List.map_append]
  rfl

theorem prepareAll_run (f : Fleet) (earlier nodes : List Address) :
    Prepared f sender uuid version change count patience clock earlier nodes
      ((prepareAll sender uuid version change (targets (count · + 1) earlier)
        (targets count nodes)).run patience clock f).1
      ((prepareAll sender uuid version change (targets (count · + 1) earlier)
        (targets count nodes)).run patience clock f).2
      ((prepareAll sender uuid version change (targets (count · + 1) earlier)
        (targets count nodes)).transcript patience clock f) := by
  induction nodes generalizing f earlier with
  | nil =>
    have told : f.sendAll (prepareFor sender uuid version change count) (some patience.call) clock
        [] = (f, []) := rfl
    exact .all told nofun
  | cons node rest ih =>
    have unfolded := prepareAll_cons sender uuid version change count earlier node rest
    cases sent : f.send node (prepareFor sender uuid version change count node)
        (some patience.call) (clock f.calls.length) with
    | mk g answer =>
    cases answer with
    | ok =>
      have later := ih g (earlier ++ [node])
      simp only [unfolded, Pass.run, Pass.transcript, sent]
      generalize (prepareAll sender uuid version change (targets (count · + 1) (earlier ++ [node]))
        (targets count rest)).run patience clock g = ended at later ⊢
      generalize (prepareAll sender uuid version change (targets (count · + 1) (earlier ++ [node]))
        (targets count rest)).transcript patience clock g = calls at later ⊢
      obtain ⟨last, result⟩ := ended
      cases later with
      | @all _ answers told accepted =>
        have told' : f.sendAll (prepareFor sender uuid version change count)
            (some patience.call) clock (node :: rest) = (last, (node, .ok ()) :: answers) := by
          simp only [Fleet.sendAll, sent, told]
        exact .all told' (List.forall_mem_cons.2 ⟨rfl, accepted⟩)
      | @abandoned first later failed g' _ _ answers _ _ split told accepted refused undone =>
        have told' : f.sendAll (prepareFor sender uuid version change count)
            (some patience.call) clock (node :: first) = (g', (node, .ok ()) :: answers) := by
          simp only [Fleet.sendAll, sent, told]
        have split' : node :: rest = (node :: first) ++ failed :: later :=
          congrArg (node :: ·) split
        rw [List.append_assoc] at undone
        exact .abandoned split' told' (List.forall_mem_cons.2 ⟨rfl, accepted⟩) refused
          undone
    | error e =>
      obtain ⟨run, transcript⟩ := rollbackAll_run sender uuid count patience clock g earlier
      simp only [unfolded, Pass.run, Pass.transcript, sent, Pass.run_bind, Pass.transcript_bind,
        run, transcript, List.append_nil]
      have told : f.sendAll (prepareFor sender uuid version change count) (some patience.call) clock
          [] = (f, []) := rfl
      have split : node :: rest = [] ++ node :: rest := rfl
      refine .abandoned split told nofun sent ?_
      rw [List.append_nil]

/-! ## The phases together -/

theorem callsOf_map (phase : Phase) (answer : Address → Except CallError Unit)
    (nodes : List Address) : callsOf phase (nodes.map fun node => (node, answer node)) =
      nodes.map fun node => ⟨node, phase, (answer node).isOk⟩ := by
  rw [callsOf, List.map_map]
  rfl

/-- The failures are those of the nodes that did not answer, in the order of the calls. -/
theorem failuresOf_map (answer : Address → Except CallError Unit) (nodes : List Address) :
    (failuresOf (nodes.map fun node => (node, answer node))).map
        (fun failure => (failure.address, failure.phase)) =
      (nodes.filter fun node => !(answer node).isOk).map (·, .commit) := by
  induction nodes with
  | nil => rfl
  | cons node rest ih =>
    rw [List.map_cons, failuresOf, List.filterMap_cons, List.filter_cons]
    cases answer node with
    | ok => exact ih
    | error e => exact congrArg _ ih

/-- The commit phase succeeds if all nodes answer, and reports the others. -/
theorem toCommitResult_cases (uuid : Uuid) (answer : Address → Except CallError Unit)
    (nodes : List Address) :
    ((∀ node ∈ nodes, (answer node).isOk = true) ∧ Failures.toCommitResult
        ⟨failuresOf (nodes.map fun node => (node, answer node))⟩ uuid = .ok ()) ∨
      ((∃ node ∈ nodes, (answer node).isOk = false) ∧ ∃ failures : List NodeFailure,
        Failures.toCommitResult ⟨failuresOf (nodes.map fun node => (node, answer node))⟩ uuid =
          .error (.partialCommit uuid failures) ∧
        failures.map (fun failure => (failure.address, failure.phase)) =
          (nodes.filter fun node => !(answer node).isOk).map (·, .commit)) := by
  have named := failuresOf_map answer nodes
  generalize failuresOf (nodes.map fun node => (node, answer node)) = failures at named ⊢
  by_cases all : ∀ node ∈ nodes, (answer node).isOk = true
  · have none : nodes.filter (fun node => !(answer node).isOk) = [] := by
      rw [List.filter_eq_nil_iff]
      intro node mem
      rw [all node mem]
      decide
    rw [none, List.map_nil, List.map_eq_nil_iff] at named
    rw [named]
    exact .inl ⟨all, rfl⟩
  · push Not at all
    obtain ⟨missed, mem, unanswered⟩ := all
    have unanswered := Bool.eq_false_iff.2 unanswered
    have listed : missed ∈ nodes.filter fun node => !(answer node).isOk :=
      List.mem_filter.2 ⟨mem, by rw [unanswered]; rfl⟩
    have some_ : failures ≠ [] := by
      rintro rfl
      rw [List.map_nil, eq_comm, List.map_eq_nil_iff] at named
      exact List.ne_nil_of_mem listed named
    refine .inr ⟨⟨missed, mem, unanswered⟩, failures, ?_, named⟩
    rw [Failures.toCommitResult, Failures.isEmpty, List.isEmpty_eq_false_iff.2 some_]
    rfl

theorem callsOf_accepted {phase : Phase} {nodes : List Address}
    {answers : List (Address × Except CallError Unit)} (listed : answers.map (·.1) = nodes)
    (accepted : ∀ entry ∈ answers, entry.2 = .ok ()) :
    callsOf phase answers = nodes.map (⟨·, phase, true⟩) := by
  rw [callsOf, ← listed, List.map_map]
  refine List.map_congr_left fun entry mem => ?_
  rw [accepted entry mem]
  rfl

theorem told_accepted {f g : Fleet} {message : Address → Message} {limit : Option Span}
    {nodes : List Address} {answers : List (Address × Except CallError Unit)}
    (distinct : nodes.Nodup) (told : f.sendAll message limit clock nodes = (g, answers))
    (accepted : ∀ entry ∈ answers, entry.2 = .ok ()) (phase : Phase) :
    f.Told message clock nodes (fun _ => true) g ∧
      callsOf phase answers = nodes.map (⟨·, phase, true⟩) := by
  obtain ⟨answer, answers_eq, g_told⟩ := f.told_sendAll message limit clock distinct
  have listed := f.nodes_sendAll message limit clock nodes
  simp only [told] at answers_eq g_told listed
  have ok : ∀ node ∈ nodes, answer node = .ok () := by
    intro node mem
    refine accepted (node, _) ?_
    rw [answers_eq]
    exact List.mem_map_of_mem mem
  refine ⟨g_told.congr fun node mem => ?_, callsOf_accepted listed accepted⟩
  rw [ok node mem]
  rfl

/-- How a change is carried out: all nodes prepare it and are told to commit it, or those before
the first one that does not prepare it are told to roll it back. -/
inductive Carried (f : Fleet) (sender : Sender) (uuid : Uuid) (version : Nat) (change : Change)
    (count : Address → Nat) (clock : Clock) (nodes : List Address) :
    Fleet → Except Error Unit → List Call → Prop
  | abandoned {first rest : List Address} {node : Address} {g h last : Fleet}
      {rolledBack : Address → Bool} {e : CallError} (split : nodes = first ++ node :: rest)
      (prepares : f.Told (prepareFor sender uuid version change count) clock first
        (fun _ => true) g)
      (refused : g.Told (prepareFor sender uuid version change count) clock [node]
        (fun _ => false) h)
      (rollbacks : h.Told (rollbackFor sender uuid count) clock first rolledBack last) :
      Carried f sender uuid version change count clock nodes last
        (.error (.prepareFailed node.text e.text))
        (first.map (⟨·, .prepare, true⟩) ++ ⟨node, .prepare, false⟩ ::
          first.map fun node => ⟨node, .rollback, rolledBack node⟩)
  | completed {g last : Fleet} {answer : Address → Except CallError Unit}
      (prepares : f.Told (prepareFor sender uuid version change count) clock nodes
        (fun _ => true) g)
      (commits : g.Told (commitFor sender uuid count) clock nodes (fun node => (answer node).isOk)
        last) :
      Carried f sender uuid version change count clock nodes last
        (Failures.toCommitResult ⟨failuresOf (nodes.map fun node => (node, answer node))⟩ uuid)
        (nodes.map (⟨·, .prepare, true⟩) ++
          nodes.map fun node => ⟨node, .commit, (answer node).isOk⟩)

theorem carryOut_run (f : Fleet) {nodes : List Address} (distinct : nodes.Nodup) :
    Carried f sender uuid version change count clock nodes
      ((carryOut sender uuid version change (targets count nodes)).run patience clock f).1
      ((carryOut sender uuid version change (targets count nodes)).run patience clock f).2
      ((carryOut sender uuid version change (targets count nodes)).transcript patience clock
        f) := by
  have prepared := prepareAll_run sender uuid version change count patience clock f [] nodes
  rw [carryOut, Pass.run_bind, Pass.transcript_bind]
  rw [show targets (count · + 1) [] = [] from rfl] at prepared
  generalize (prepareAll sender uuid version change [] (targets count nodes)).run patience clock f =
    ended at prepared ⊢
  generalize (prepareAll sender uuid version change [] (targets count nodes)).transcript patience
    clock f = calls at prepared ⊢
  obtain ⟨after, result⟩ := ended
  cases prepared with
  | @all _ answers told accepted =>
    obtain ⟨prepares, calls⟩ := told_accepted clock distinct told accepted .prepare
    obtain ⟨run, transcript⟩ := commitAll_run sender uuid count patience clock after .none nodes
    simp only [targets_succ, Pass.run_bind, Pass.transcript_bind, Pass.run_pure,
      Pass.transcript_pure, run, transcript, calls, List.append_nil]
    obtain ⟨answer, answered, commits⟩ := after.told_sendAll (commitFor sender uuid count)
      (some patience.call) clock distinct
    rw [answered, callsOf_map]
    exact .completed prepares commits
  | @abandoned first rest node g h _ answers rollbacks e split told accepted refused undone =>
    have distinct_first : first.Nodup := by
      rw [split] at distinct
      exact distinct.of_append_left
    obtain ⟨prepares, calls⟩ := told_accepted clock distinct_first told accepted .prepare
    have refusal := g.told_send (prepareFor sender uuid version change count) (some patience.call)
      clock node g.calls.length
    obtain ⟨answer, answered, rolledBack⟩ := h.told_sendAll (rollbackFor sender uuid count)
      (some patience.call) clock distinct_first
    rw [List.nil_append] at undone
    simp only [undone] at rolledBack answered
    rw [refused] at refusal
    simp only [Pass.run_pure, Pass.transcript_pure, calls, answered, callsOf_map, List.append_nil]
    exact .abandoned split prepares refusal rolledBack

end ChangePass
end Reconfig
