/-
What a change pass that fails leaves behind, and whether its error says so.

A node holds the change after the pass just if it prepared the change and did not say that it
has closed it. Where that was to be a commit the error asks for a repair. Where it was to be a
rollback the error is about the node that did not prepare the change, and asks for none, although
the nodes that were to roll the change back may need one.
-/
import Reconfig.Proofs.Coordination.Outcomes

namespace Reconfig

namespace Fleet

/-- The nodes are members that accept changes. -/
def Idle (f : Fleet) (nodes : List Address) : Prop :=
  ∀ node ∈ nodes, ∃ p state, f.member? node = some p ∧ p.state = .ok state ∧
    state.mode = .accepting

/-- The node holds the change if it is said to, and accepts changes otherwise. -/
def Leaves (f : Fleet) (node : Address) (uuid : Uuid) (holding : Prop) : Prop :=
  ∃ q state, f.member? node = some q ∧ q.state = .ok state ∧
    (holding → state.mode = .prepared ∧ state.latest = some uuid) ∧
    (¬ holding → state.mode = .accepting)

variable {f g : Fleet} {nodes : List Address} {node : Address} {uuid : Uuid} {version : Nat}
  {p q : Participant} {holding : Prop}

theorem Idle.leaves (idle : f.Idle nodes) (mem : node ∈ nodes)
    (same : g.member? node = f.member? node) (never : ¬ holding) : g.Leaves node uuid holding := by
  obtain ⟨p, state, member, read, accepting⟩ := idle node mem
  exact ⟨p, state, same.trans member, read, fun held => absurd held never, fun _ => accepting⟩

/-- A node that took part in a change holds it until it is closed. -/
theorem leaves_of_tookPart {state : ChangeState} (member : f.member? node = some q)
    (part : p.TookPart q uuid version state) (holds : holding ↔ state = .prepared) :
    f.Leaves node uuid holding := by
  obtain ⟨_, after, -, read, -, -, mode, -, latest, -⟩ := part.protocol
  refine ⟨q, after, member, read, fun held => ⟨?_, latest⟩, fun closed => ?_⟩
  · exact mode.trans (if_pos (holds.1 held))
  · exact mode.trans (if_neg fun held => closed (holds.2 held))

end Fleet

theorem Error.Untouched.needsRepair {e : Error} (untouched : e.Untouched) :
    e.needsRepair = false := by
  cases e with
  | partialCommit => exact untouched.elim
  | _ => rfl

namespace ChangePass

/-- The node was told to close the change, and did not say that it has. -/
def LeftOpen (calls : List Call) (node : Address) : Prop :=
  ⟨node, .rollback, false⟩ ∈ calls ∨ ⟨node, .commit, false⟩ ∈ calls

section Calls

variable {order first : List Address} {target node : Address} {answered : Address → Bool}

theorem not_leftOpen_of_discover {calls : List Call}
    (asked : ∀ call ∈ calls, call.phase = .discover) : ¬ LeftOpen calls node := by
  rintro (rollback | commit)
  · cases asked _ rollback
  · cases asked _ commit

theorem leftOpen_abandoned : LeftOpen (order.map (⟨·, .discover, true⟩) ++
    (first.map (⟨·, .prepare, true⟩) ++ ⟨target, .prepare, false⟩ ::
      first.map fun node => ⟨node, .rollback, answered node⟩)) node ↔
    node ∈ first ∧ answered node = false := by
  simp [LeftOpen]

theorem commit_not_mem_abandoned : (⟨node, .commit, false⟩ : Call) ∉
    order.map (⟨·, .discover, true⟩) ++ (first.map (⟨·, .prepare, true⟩) ++
      ⟨target, .prepare, false⟩ :: first.map fun node => ⟨node, .rollback, answered node⟩) := by
  simp

theorem commit_mem_committed : (⟨node, .commit, false⟩ : Call) ∈
    order.map (⟨·, .discover, true⟩) ++ (order.map (⟨·, .prepare, true⟩) ++
      order.map fun node => ⟨node, .commit, answered node⟩) ↔
    node ∈ order ∧ answered node = false := by
  simp

theorem leftOpen_committed : LeftOpen (order.map (⟨·, .discover, true⟩) ++
    (order.map (⟨·, .prepare, true⟩) ++
      order.map fun node => ⟨node, .commit, answered node⟩)) node ↔
    node ∈ order ∧ answered node = false := by
  rw [LeftOpen, commit_mem_committed]
  simp

end Calls

variable {f after : Fleet} {sender : Sender} {uuid : Uuid}
  {nodes : List (Address × LogicalState)} {change : Change} {patience : Patience}
  {clock : Clock} {e : Error}

/-- After a pass that fails just those nodes hold the change that did not say that they have
closed it. The error asks for a repair if one of them was to commit the change, and only then. -/
theorem error_leaves (lived : f.Lived (nodes.map (·.1))) (distinct : (nodes.map (·.1)).Nodup)
    (idle : f.Idle (nodes.map (·.1))) (storable : ∀ n, (clock n).Storable)
    (ran : (changePass sender uuid nodes change).run patience clock f = (after, .error e)) :
    (∀ node ∈ nodes.map (·.1), after.Leaves node uuid
      (LeftOpen ((changePass sender uuid nodes change).transcript patience clock f) node)) ∧
    (e.needsRepair = true ↔ ∃ node ∈ nodes.map (·.1), ⟨node, .commit, false⟩ ∈
      (changePass sender uuid nodes change).transcript patience clock f) := by
  have ends := ends lived distinct storable ran
  generalize (changePass sender uuid nodes change).transcript patience clock f = calls at ends ⊢
  cases ends with
  | unready untouched same asked =>
    refine ⟨fun node mem => idle.leaves mem (same node) (not_leftOpen_of_discover asked), ?_⟩
    rw [untouched.needsRepair]
    refine ⟨nofun, fun ⟨node, _, commit⟩ => ?_⟩
    cases asked _ commit
  | @abandoned first _ _ _ rolledBack _ _ _ _ split ready undone =>
    refine ⟨fun node mem => ?_, nofun, fun ⟨node, _, commit⟩ => ?_⟩
    · by_cases inside : node ∈ first
      · obtain ⟨p, q, -, found, part, -⟩ := undone.undone node inside
        refine Fleet.leaves_of_tookPart found part ?_
        rw [leftOpen_abandoned]
        cases rolledBack node <;> simp [inside]
      · refine idle.leaves mem (undone.others node inside) fun leftOpen => ?_
        exact inside (leftOpen_abandoned.1 leftOpen).1
    · exact absurd commit commit_not_mem_abandoned
  | @committed done _ _ _ _ _ ready phase reported =>
    rcases reported with ⟨-, succeeded⟩ | ⟨⟨missed, mem, unanswered⟩, failures, failed, -⟩
    · cases succeeded
    · cases failed
      have listed {node : Address} (mem : node ∈ nodes.map (·.1)) := mem_passivesFirst.2 mem
      refine ⟨fun node mem => ?_, fun _ => ⟨missed, mem, ?_⟩, fun _ => rfl⟩
      · cases answer : done node with
        | false =>
          obtain ⟨p, q, -, found, part, -⟩ := phase.held node mem answer
          refine Fleet.leaves_of_tookPart found part ?_
          simp [leftOpen_committed, listed mem, answer]
        | true =>
          obtain ⟨p, q, -, found, part, -⟩ := phase.done node mem answer
          refine Fleet.leaves_of_tookPart found part ?_
          simp [leftOpen_committed, answer]
      · exact commit_mem_committed.2 ⟨listed mem, unanswered⟩

theorem stranded_idle : stranded.Idle (founders.map (·.1)) := by
  have idle : ∀ name, ∃ state, (Participant.blank name).state = .ok state ∧
      state.mode = .accepting := fun name => ⟨_, rfl, rfl⟩
  refine List.forall_mem_cons.2 ⟨?_, List.forall_mem_singleton.2 ?_⟩
  · obtain ⟨state, read, accepting⟩ := idle "a"
    exact ⟨_, state, rfl, read, accepting⟩
  · obtain ⟨state, read, accepting⟩ := idle "b"
    exact ⟨_, state, rfl, read, accepting⟩

/-- The first node still holds the change, and the error does not ask for a repair. -/
theorem stranded_leaves : ∃ after e q state, foundingRun stranded = (after, .error e) ∧
    e = .prepareFailed "b:1" "unreachable: b:1 is down" ∧ e.needsRepair = false ∧
    after.member? ⟨"a:1"⟩ = some q ∧ q.state = .ok state ∧ state.mode = .prepared ∧
    state.latest = some ⟨.replicate 32 1⟩ := by
  have failed : (foundingRun stranded).2 =
      .error (.prepareFailed "b:1" "unreachable: b:1 is down") := by decide +kernel
  have unanswered : (⟨⟨"a:1"⟩, .rollback, false⟩ : Call) ∈ foundingCalls stranded := by
    decide +kernel
  have ran := foundingRun_eq failed
  have lived : stranded.Lived (founders.map (·.1)) := pair_lived _
  obtain ⟨left, -⟩ := error_leaves lived (by decide) stranded_idle Clock.storable_everySecond ran
  obtain ⟨q, state, member, read, held, -⟩ := left ⟨"a:1"⟩ List.mem_cons_self
  obtain ⟨mode, latest⟩ := held (.inl unanswered)
  exact ⟨_, _, q, state, ran, rfl, rfl, member, read, mode, latest⟩

end ChangePass
end Reconfig
