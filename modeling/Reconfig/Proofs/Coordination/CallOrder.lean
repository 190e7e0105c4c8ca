/-
The order in which a change pass calls the nodes.

The pass asks every node before it sends the first message, and sends none unless all of them are
ready. From then on the calls of each phase go through the nodes in one order, in which the active
ones come last: the prepare calls up to the first one that fails, the rollback calls over the nodes
before it, and the commit calls over all nodes, whatever they answer. It makes no difference in
which states the nodes are, which calls get lost, or whether a node is named twice.
-/
import Reconfig.Proofs.Coordination.Forcing

namespace Reconfig

namespace Report

variable {r : Report}

/-- All nodes have answered, accept changes, and are consistent. -/
structure Ready (r : Report) : Prop where
  reachable : r.unreachable = []
  accepting : ∀ entry ∈ r.responses, entry.2.mode = .accepting
  consistent : r.isConsistent = true

theorem ready_iff : r.Ready ↔ ∃ version, r.readyVersion = .ok version := by
  constructor
  · rintro ⟨reachable, accepting, consistent⟩
    have idle : r.responses.filter (·.2.mode != .accepting) = [] := by
      rw [List.filter_eq_nil_iff]
      intro entry mem
      simp [accepting entry mem]
    rw [isConsistent] at consistent
    cases verdict : r.state with
    | consistent version head =>
      exact ⟨version + 1, by simp [readyVersion, allReachable, reachable, idle, verdict]⟩
    | _ =>
      rw [verdict] at consistent
      cases consistent
  · rintro ⟨version, ready⟩
    obtain ⟨reachable, accepting, current, head, -, verdict⟩ := readyVersion_eq_ok ready
    exact ⟨reachable, accepting, by rw [isConsistent, verdict]; rfl⟩

/-- Every node that is listed with an answer is found by its address. -/
theorem exists_response? {snapshots : List (Address × Snapshot)} {node : Address}
    (mem : node ∈ snapshots.map (·.1)) :
    ∃ s, (Report.mk snapshots []).response? node = some s := by
  obtain ⟨entry, shown, rfl⟩ := List.mem_map.1 mem
  exact Option.isSome_iff_exists.1 (List.lookup_isSome_iff.2 ⟨entry, shown, by simp⟩)

/-- What a node has answered says how many messages it has accepted. -/
theorem counts_of_answered {order : List Address}
    (answered : ∀ node ∈ order, ∃ s, r.response? node = some s) :
    r.counts order =
      .ok (ChangePass.targets (fun node => ((r.response? node).map (·.count)).getD 0) order) := by
  induction order with
  | nil => rfl
  | cons node rest ih =>
    obtain ⟨⟨s, response⟩, others⟩ := List.forall_mem_cons.1 answered
    have ih := ih others
    rw [Report.counts] at ih ⊢
    rw [List.mapM_cons, ih, response, ChangePass.targets, ChangePass.targets, List.map_cons,
      response]
    rfl

end Report

/-! ## Calls of one phase -/

/-- One call of the phase to each of the nodes, in this order. -/
def CallsEach (phase : Phase) (nodes : List Address) (calls : List Call) : Prop :=
  calls.map (fun call => (call.node, call.phase)) = nodes.map (·, phase)

/-- The nodes to which calls of the phase were made. -/
def calledIn (phase : Phase) (calls : List Call) : List Address :=
  (calls.filter (·.phase == phase)).map (·.node)

theorem calledIn_append (phase : Phase) (calls more : List Call) :
    calledIn phase (calls ++ more) = calledIn phase calls ++ calledIn phase more := by
  rw [calledIn, List.filter_append, List.map_append, calledIn, calledIn]

namespace CallsEach

variable {phase other : Phase} {nodes : List Address} {calls : List Call}

theorem calledIn_eq (each : CallsEach phase nodes calls) :
    calledIn other calls = if phase = other then nodes else [] := by
  have listed : calledIn other calls =
      ((calls.map fun call => (call.node, call.phase)).filter (·.2 == other)).map (·.1) := by
    rw [List.filter_map, List.map_map]
    rfl
  rw [listed, each, List.filter_map, List.map_map]
  by_cases same : phase = other
  · simp [same, Function.comp_def]
  · simp [same, Function.comp_def]

theorem map (phase : Phase) (answered : Bool) (nodes : List Address) :
    CallsEach phase nodes (nodes.map (⟨·, phase, answered⟩)) := by
  rw [CallsEach, List.map_map]
  rfl

theorem asked {answers : List (Address × Except CallError Snapshot)}
    (listed : answers.map (·.1) = nodes) :
    CallsEach .discover nodes (answers.map fun entry => ⟨entry.1, .discover, entry.2.isOk⟩) := by
  rw [CallsEach, ← listed, List.map_map, List.map_map]
  rfl

theorem callsOf {answers : List (Address × Except CallError Unit)}
    (listed : answers.map (·.1) = nodes) :
    CallsEach phase nodes (ChangePass.callsOf phase answers) := by
  rw [CallsEach, ChangePass.callsOf, ← listed, List.map_map, List.map_map]
  rfl

end CallsEach

/-! ## Active nodes come last -/

/-- The calls go to nodes that are not active, and to active ones only after all of those. Among
either the order is the given one. -/
def ActivesLast (nodes : List (Address × LogicalState)) (called : List Address) : Prop :=
  ∃ others actives, called = others ++ actives ∧
    others <+: (nodes.filter (!·.2.isActive)).map (·.1) ∧
    actives <+: (nodes.filter (·.2.isActive)).map (·.1) ∧
    (actives ≠ [] → others = (nodes.filter (!·.2.isActive)).map (·.1))

theorem ActivesLast.of_opening {nodes : List (Address × LogicalState)} {called : List Address}
    (first : called <+: passivesFirst nodes) : ActivesLast nodes called := by
  obtain ⟨rest, split⟩ := first
  rw [passivesFirst, List.map_append, List.append_eq_append_iff] at split
  rcases split with ⟨more, others, -⟩ | ⟨actives, rfl, split⟩
  · exact ⟨called, [], (List.append_nil _).symm, ⟨more, others.symm⟩, List.nil_prefix,
      fun some => absurd rfl some⟩
  · exact ⟨_, actives, rfl, List.prefix_rfl, ⟨rest, split.symm⟩, fun _ => rfl⟩

namespace ChangePass

/-- How the calls of a change pass follow each other, where it goes through the nodes in this order
and they are ready or not. -/
inductive Sequence (order : List Address) (ready : Prop) : List Call → Prop
  | unready {asks : List Call} (asked : CallsEach .discover order asks) (never : ¬ ready) :
      Sequence order ready asks
  | abandoned {asks rollbacks : List Call} {first rest : List Address} {node : Address}
      (asked : CallsEach .discover order asks) (go : ready)
      (split : order = first ++ node :: rest) (undone : CallsEach .rollback first rollbacks) :
      Sequence order ready
        (asks ++ (first.map (⟨·, .prepare, true⟩) ++ [⟨node, .prepare, false⟩] ++ rollbacks))
  | completed {asks commits : List Call} (asked : CallsEach .discover order asks) (go : ready)
      (some : order ≠ []) (told : CallsEach .commit order commits) :
      Sequence order ready (asks ++ (order.map (⟨·, .prepare, true⟩) ++ commits))

/-- In every phase the nodes are called in the order of the pass, up to some node. -/
theorem Sequence.calledIn_opening {order : List Address} {ready : Prop} {calls : List Call}
    (sequence : Sequence order ready calls) (phase : Phase) : calledIn phase calls <+: order := by
  cases sequence with
  | unready asked =>
    rw [asked.calledIn_eq]
    split
    · exact List.prefix_rfl
    · exact List.nil_prefix
  | @abandoned _ _ first rest node asked _ split undone =>
    have prepared : CallsEach .prepare (first ++ [node])
        (first.map (⟨·, .prepare, true⟩) ++ [⟨node, .prepare, false⟩]) := by
      simp [CallsEach, Function.comp_def]
    rw [calledIn_append, calledIn_append, asked.calledIn_eq, prepared.calledIn_eq,
      undone.calledIn_eq, split]
    cases phase <;> simp
  | completed asked _ _ told =>
    rw [calledIn_append, calledIn_append, asked.calledIn_eq, told.calledIn_eq,
      (CallsEach.map .prepare true order).calledIn_eq]
    cases phase <;> simp

variable (sender : Sender) (uuid : Uuid) (version : Nat) (change : Change) (count : Address → Nat)
  (patience : Patience) (clock : Clock)

/-- The calls of a pass that carries out its change, after those of the discovery. -/
theorem carryOut_sequence (f : Fleet) {order : List Address} (some : order ≠ []) {ready : Prop}
    (go : ready) {asks : List Call} (asked : CallsEach .discover order asks) :
    Sequence order ready (asks ++
      (carryOut sender uuid version change (targets count order)).transcript patience clock f) := by
  have prepared := prepareAll_run sender uuid version change count patience clock f [] order
  rw [carryOut, Pass.transcript_bind]
  rw [show targets (count · + 1) [] = [] from rfl] at prepared
  generalize (prepareAll sender uuid version change [] (targets count order)).run patience clock f =
    ended at prepared ⊢
  generalize (prepareAll sender uuid version change [] (targets count order)).transcript patience
    clock f = calls at prepared ⊢
  obtain ⟨after, result⟩ := ended
  cases prepared with
  | @all _ answers told accepted =>
    have listed := f.nodes_sendAll (prepareFor sender uuid version change count)
      (Option.some patience.call) clock order
    rw [told] at listed
    obtain ⟨-, transcript⟩ := commitAll_run sender uuid count patience clock after .none order
    simp only [targets_succ, Pass.transcript_bind, Pass.transcript_pure, transcript,
      List.append_nil, callsOf_accepted listed accepted]
    exact .completed asked go some (.callsOf (after.nodes_sendAll _ _ _ _))
  | @abandoned first rest node g h _ answers rollbacks e split told accepted refused undone =>
    have listed := f.nodes_sendAll (prepareFor sender uuid version change count)
      (Option.some patience.call) clock first
    have rolledBack := h.nodes_sendAll (rollbackFor sender uuid count)
      (Option.some patience.call) clock first
    rw [told] at listed
    rw [List.nil_append] at undone
    rw [undone] at rolledBack
    simp only [Pass.transcript_pure, List.append_nil, callsOf_accepted listed accepted]
    rw [List.append_cons]
    exact .abandoned asked go split (.callsOf rolledBack)

end ChangePass

/-- The calls of a change pass, whatever the nodes and the faults are. It asks all nodes, and calls
none again unless they are ready. Each phase goes through the nodes in one order, and the active
ones come last in it. -/
theorem changePass_sequence (sender : Sender) (uuid : Uuid)
    (nodes : List (Address × LogicalState)) (change : Change) (patience : Patience)
    (clock : Clock) (f : Fleet) :
    ((changePass sender uuid nodes change).run patience clock f).1.calls =
      f.calls ++ ((changePass sender uuid nodes change).transcript patience clock f).map
        (fun call => (call.node, call.phase)) ∧
    ChangePass.Sequence (passivesFirst nodes) (f.report patience (passivesFirst nodes)).Ready
      ((changePass sender uuid nodes change).transcript patience clock f) ∧
    ∀ phase, ActivesLast nodes
      (calledIn phase ((changePass sender uuid nodes change).transcript patience clock f)) := by
  have sequence : ChangePass.Sequence (passivesFirst nodes)
      (f.report patience (passivesFirst nodes)).Ready
      ((changePass sender uuid nodes change).transcript patience clock f) := by
    unfold changePass
    dsimp only
    split
    · rename_i empty
      rw [List.isEmpty_iff.1 empty, Pass.transcript_pure]
      exact .unready rfl fun ready => Bool.false_ne_true ready.consistent
    · rename_i nonempty
      rw [List.isEmpty_iff] at nonempty
      have listed := (f.discoverAll_serves (some patience.discovery) (passivesFirst nodes)).1
      rw [Pass.transcript_bind, Fleet.report]
      simp only [Pass.check, Pass.run, Pass.transcript, List.append_nil]
      generalize f.discoverAll (some patience.discovery) (passivesFirst nodes) = round at *
      obtain ⟨g, answers⟩ := round
      have asked := CallsEach.asked listed
      by_cases ready : (Report.ofAnswers answers).Ready
      · obtain ⟨version, next⟩ := Report.ready_iff.1 ready
        obtain ⟨snapshots, rfl⟩ := Report.answers_eq_map ready.reachable
        have answered : ∀ node ∈ passivesFirst nodes, ∃ s,
            (Report.mk snapshots []).response? node = some s := by
          intro node mem
          rw [← listed, List.map_map] at mem
          exact Report.exists_response? mem
        simp only [Report.ofAnswers_ok] at next ⊢
        simp only [next, Report.counts_of_answered answered, Outcome.ok_bind, Outcome.pure_eq_ok,
          Pass.transcript_bind, Pass.transcript_pure, List.append_nil]
        rw [Report.ofAnswers_ok] at ready
        exact ChangePass.carryOut_sequence _ _ _ _ _ _ _ _ nonempty ready asked
      · cases next : (Report.ofAnswers answers).readyVersion with
        | error e =>
          simp only [Outcome.error_bind, Pass.transcript_pure, List.append_nil]
          exact .unready asked ready
        | ok version => exact absurd (Report.ready_iff.2 ⟨version, next⟩) ready
  exact ⟨Pass.calls_run patience clock _ f, sequence, fun phase =>
    .of_opening (sequence.calledIn_opening phase)⟩

end Reconfig
