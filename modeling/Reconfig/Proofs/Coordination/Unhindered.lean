/-
Changes that nothing stands in the way of.

Where every call gets there, every node keeps its store in memory and nobody objects, a change goes
through on all nodes that are level if it is valid there. Each of them then has one more committed
request and is as unhindered as before, so that the next change can follow.
-/
import Reconfig.Proofs.Coordination.Outcomes
import Reconfig.Proofs.Participant.Acceptance

namespace Reconfig

/-- Every call gets there, and each node follows what its history can take. -/
structure Fleet.Unhindered (f : Fleet) (limits : Limits) (H : Histories) : Prop where
  faults : f.faults = []
  members : ∀ {node p}, f.member? node = some p → p.Unhindered limits (H node)

namespace Fleet

variable {f : Fleet} {P : Participant → Prop} {now : Timestamp} {clock : Clock}

theorem states_send (f : Fleet) (node : Address) (m : Message) (limit : Option Span)
    (now : Timestamp) : (f.send node m limit now).1.states = f.states := by
  unfold send
  cases f.reach node m.phase limit <;> rfl

theorem discoverAll_keeps (f : Fleet) (limit : Option Span) (nodes : List Address) :
    (f.discoverAll limit nodes).1.faults = f.faults ∧
      (f.discoverAll limit nodes).1.states = f.states := by
  induction nodes generalizing f with
  | nil => exact ⟨rfl, rfl⟩
  | cons node rest ih => exact ih (f.record node .discover)

/-- What each message preserves of a node, it preserves of all nodes. -/
theorem send_forall (kept : ∀ p m, P p → P (p.handle m now).1)
    (all : ∀ node p, f.member? node = some p → P p) (node : Address) (m : Message)
    (limit : Option Span) :
    ∀ other q, (f.send node m limit now).1.member? other = some q → P q := by
  intro other q member
  by_cases is : other = node
  · subst is
    unfold send at member
    split at member
    · exact all other q member
    · rename_i p reached
      rw [member?_deliver, if_pos rfl] at member
      obtain rfl := Option.some.inj member
      exact kept p m (all other p (reach_member reached))
  · rw [f.member?_send_of_ne m limit now is] at member
    exact all other q member

/-- And so does a whole pass. -/
theorem run_forall {α : Type} (kept : ∀ n p m, P p → P (p.handle m (clock n)).1)
    (pass : Pass α) (patience : Patience) (all : ∀ node p, f.member? node = some p → P p) :
    ∀ node p, (pass.run patience clock f).1.member? node = some p → P p := by
  induction pass generalizing f with
  | done => exact all
  | discover asked next ih =>
    refine ih _ fun node p member => all node p ?_
    rw [← member, f.member?_discoverAll]
  | send node m next ih => exact ih _ (send_forall (kept _) all node m (some patience.call))

end Fleet

/-- No pass changes the faults, or what is known of the states of the nodes. -/
theorem Pass.run_keeps {α : Type} (pass : Pass α) (patience : Patience) (clock : Clock)
    (f : Fleet) : (pass.run patience clock f).1.faults = f.faults ∧
      (pass.run patience clock f).1.states = f.states := by
  induction pass generalizing f with
  | done => exact ⟨rfl, rfl⟩
  | discover nodes next ih =>
    obtain ⟨faults, states⟩ := f.discoverAll_keeps (some patience.discovery) nodes
    obtain ⟨faults', states'⟩ := ih _ (f.discoverAll (some patience.discovery) nodes).1
    exact ⟨faults'.trans faults, states'.trans states⟩
  | send node m next ih =>
    obtain ⟨faults, states⟩ := ih _ (f.send node m (some patience.call) (clock f.calls.length)).1
    exact ⟨faults.trans (f.faults_send node m _ _), states.trans (f.states_send node m _ _)⟩

theorem Participant.Unhindered.of_stands {p : Participant} {limits : Limits} {h h' : History}
    (unhindered : p.Unhindered limits h) (stands : p.Stands h') : p.Unhindered limits h' := by
  obtain ⟨⟨_, settled⟩, memory, unopposed⟩ := unhindered
  obtain ⟨_, accepted, settled'⟩ := stands
  obtain rfl := settled.limits.symm.trans settled'.limits
  exact ⟨⟨accepted, settled'⟩, memory, unopposed⟩

/-- On a node that has committed a change, the result of the change is in effect and to come. -/
theorem Participant.Follows.effect {p q : Participant} {h : History} {uuid : Uuid}
    {change : Change} {d : ChangeDetails} (follows : p.Follows q h uuid change .commit true d)
    (stands : p.Stands h) (room : h.length < chainLimit) : d.state = .committed ∧
      change.apply h.topology = .ok d.result ∧ q.runtimeTopology = some d.result ∧
      q.upcomingTopology = .ok (some d.result) := by
  have committed : d.state = .committed := follows.state
  obtain ⟨current, result, present, applied, runtime, upcoming, taken⟩ :=
    (follows.tookOver committed).applied
  have taken := taken (stands.hasRoom_iff.2 room)
  obtain ⟨_, _, settled⟩ := stands
  obtain ⟨_, _, settled'⟩ := follows.stands
  rw [settled.committedTopology_eq, if_pos (Nat.le_of_lt room)] at present
  rw [settled'.committedTopology_eq, if_pos (show (d :: h).length ≤ chainLimit from room),
    History.topology_cons, if_pos committed] at taken
  cases present
  cases taken
  exact ⟨committed, applied, runtime, upcoming⟩

namespace Fleet.Unhindered

variable {f : Fleet} {limits : Limits} {H : Histories} {nodes : List Address} {clock : Clock}

theorem healthy (unhindered : f.Unhindered limits H)
    (registered : ∀ node ∈ nodes, ∃ p, f.member? node = some p)
    (short : ∀ node ∈ nodes, (H node).length ≤ chainLimit) : f.Healthy H nodes where
  faults := unhindered.faults
  records := by
    constructor
    · intro node p member
      obtain ⟨⟨_, settled⟩, -⟩ := unhindered.members member
      exact settled.keeps
    · intro node p member
      obtain ⟨⟨_, settled⟩, -⟩ := unhindered.members member
      exact settled.limits ▸ settled.sound
  sturdy := by
    constructor
    · intro node p member
      exact (unhindered.members member).memory
    · intro node p member
      obtain ⟨⟨_, settled⟩, -⟩ := unhindered.members member
      exact settled.legible
  member := registered
  short := short
  agree member _ := (unhindered.members member).unopposed

theorem stand (unhindered : f.Unhindered limits H) (nodes : List Address) : f.Stand nodes H := by
  intro node _ p member
  obtain ⟨⟨_, settled⟩, -⟩ := unhindered.members member
  exact ⟨_, _, settled⟩

end Fleet.Unhindered

namespace ChangePass

variable {f after : Fleet} {H : Histories} {sender : Sender} {uuid : Uuid}
  {nodes : List (Address × LogicalState)} {change : Change} {patience : Patience}
  {clock : Clock} {outcome : ChangeOutcome}

/-- A pass that succeeds has taken each of its nodes through the change, and no other node. -/
theorem ok_follows (stand : f.Stand (nodes.map (·.1)) H) (distinct : (nodes.map (·.1)).Nodup)
    (storable : ∀ n, (clock n).Storable)
    (ran : (changePass sender uuid nodes change).run patience clock f = (after, .ok outcome)) :
    (∀ node ∈ nodes.map (·.1), ∃ p q d, f.member? node = some p ∧ after.member? node = some q ∧
      p.Follows q (H node) uuid change .commit true d) ∧
    ∀ node, node ∉ nodes.map (·.1) → after.member? node = f.member? node := by
  have listed := perm_passivesFirst nodes
  have ended := changePass_run sender uuid nodes change patience clock f
    (listed.nodup_iff.2 distinct) fun node mem => stand node (listed.mem_iff.1 mem)
  rw [ran] at ended
  generalize (changePass sender uuid nodes change).transcript patience clock f = calls at ended
  generalize done : Except.ok outcome = result at ended
  cases ended with
  | unready => cases done
  | begun ready same carried =>
    have ready := ready.perm listed
    cases carried with
    | abandoned => cases done
    | @completed _ _ answer prepares commits =>
      have prepares := prepares.perm listed
      have commits := commits.perm listed
      rcases toCommitResult_cases uuid answer (passivesFirst nodes) with
        ⟨all, -⟩ | ⟨-, failures, failed, -⟩
      · refine ⟨fun node mem => ?_, fun node outside => ?_⟩
        · obtain ⟨p, q, d, member, found, follows⟩ :=
            ready.follows stand same prepares commits storable node mem
          rw [all node (listed.mem_iff.2 mem)] at follows
          exact ⟨p, q, d, member, found, follows⟩
        · rw [commits.kept node outside, prepares.kept node outside, same]
      · rw [failed] at done
        cases done

end ChangePass

namespace Fleet.Unhindered

variable {f : Fleet} {limits : Limits} {H : Histories} {nodes : List (Address × LogicalState)}
  {uuid : Uuid} {change : Change} {version : Nat} {head : Option Uuid} {clock : Clock}

/-- A change that is valid on level nodes succeeds, and leaves everything unhindered. -/
theorem changePass (unhindered : f.Unhindered limits H) (sender : Sender) (patience : Patience)
    (registered : ∀ node ∈ nodes.map (·.1), ∃ p, f.member? node = some p)
    (distinct : (nodes.map (·.1)).Nodup) (nonempty : nodes.map (·.1) ≠ [])
    (level : H.Level (nodes.map (·.1)) version head)
    (room : ∀ node ∈ nodes.map (·.1), (H node).length < chainLimit)
    (fresh : ∀ node ∈ nodes.map (·.1), ∀ d ∈ H node, d.uuid ≠ uuid)
    (valid : ∀ node ∈ nodes.map (·.1), ∃ result,
      change.validate (H node).topology limits = .ok result) (storable : ∀ n, (clock n).Storable) :
    ∃ g H', (Reconfig.changePass sender uuid nodes change).run patience clock f =
        (g, .ok ⟨uuid, version + 1, passivesFirst nodes⟩) ∧ g.Unhindered limits H' ∧
      (∀ node ∈ nodes.map (·.1), ∃ q d, g.member? node = some q ∧ H' node = d :: H node ∧
        d.uuid = uuid ∧ d.state = .committed ∧ change.apply (H node).topology = .ok d.result ∧
        q.runtimeTopology = some d.result ∧ q.upcomingTopology = .ok (some d.result)) ∧
      ∀ node, node ∉ nodes.map (·.1) →
        g.member? node = f.member? node ∧ H' node = H node := by
  have listed := perm_passivesFirst nodes
  have called : ∀ node ∈ passivesFirst nodes, node ∈ nodes.map (·.1) :=
    fun node mem => listed.mem_iff.1 mem
  have healthy := unhindered.healthy (fun node mem => registered node (called node mem))
    fun node mem => Nat.le_of_lt (room node (called node mem))
  have accepts : ∀ node ∈ passivesFirst nodes, ∀ p, f.member? node = some p → ∀ n,
      (p.handle (.prepare ⟨sender.context (H node).messages, uuid, version + 1, change⟩)
        (clock n)).2 = .ok () := by
    intro node mem p member n
    obtain ⟨⟨_, settled⟩, memory, -⟩ := unhindered.members member
    obtain ⟨result, valid⟩ := valid node (called node mem)
    obtain ⟨idle, sameVersion, -⟩ := level node (called node mem)
    exact Participant.prepare_eq_ok settled memory (Nat.le_of_lt (room node (called node mem)))
      (.prepare rfl idle (by rw [sameVersion]) (fresh node (called node mem)) valid)
  have succeeded := healthy.changePass_ok sender uuid change patience (listed.nodup_iff.2 distinct)
    (fun none => nonempty (none ▸ listed).nil_eq.symm)
    (fun node mem => level node (called node mem)) (fun node mem => room node (called node mem))
    (fun node _ p member => (unhindered.members member).unopposed) accepts
    fun n => (storable n).legible
  obtain ⟨g, ran⟩ : ∃ g, (Reconfig.changePass sender uuid nodes change).run patience clock f =
      (g, .ok ⟨uuid, version + 1, passivesFirst nodes⟩) := ⟨_, Prod.ext rfl succeeded⟩
  obtain ⟨followed, others⟩ :=
    ChangePass.ok_follows (unhindered.stand _) distinct storable ran
  have faults := ((Reconfig.changePass sender uuid nodes change).run_keeps patience clock f).1
  have kept := run_forall (P := fun p => ∃ h, p.Unhindered limits h)
    (fun n p m ⟨h, before⟩ => by
      obtain ⟨h', after, -⟩ := before.handle_cases m (storable n)
      exact ⟨h', after⟩) (Reconfig.changePass sender uuid nodes change) patience
    fun node p member => ⟨H node, unhindered.members member⟩
  rw [ran] at faults kept
  have each : ∀ node, ∃ h, (∀ q, g.member? node = some q → q.Stands h) ∧
      (node ∈ nodes.map (·.1) → ∃ q d, g.member? node = some q ∧ h = d :: H node ∧
        d.uuid = uuid ∧ d.state = .committed ∧ change.apply (H node).topology = .ok d.result ∧
        q.runtimeTopology = some d.result ∧ q.upcomingTopology = .ok (some d.result)) ∧
      (node ∉ nodes.map (·.1) → h = H node) := by
    intro node
    by_cases mem : node ∈ nodes.map (·.1)
    · obtain ⟨p, q, d, member, found, follows⟩ := followed node mem
      have effect := follows.effect (unhindered.stand _ node mem p member) (room node mem)
      refine ⟨d :: H node, fun r same => ?_, fun _ => ⟨q, d, found, rfl, follows.same, effect⟩,
        fun outside => absurd mem outside⟩
      cases found.symm.trans same
      exact follows.stands
    · refine ⟨H node, fun q member => ?_, fun inside => absurd inside mem, fun _ => rfl⟩
      rw [others node mem] at member
      exact unhindered.stand [node] node List.mem_cons_self q member
  choose H' stand inside outside using each
  refine ⟨g, H', ran, ⟨faults.trans unhindered.faults, fun {node q} member => ?_⟩, inside,
    fun node mem => ⟨others node mem, outside node mem⟩⟩
  obtain ⟨h, unhindered⟩ := kept node q member
  exact unhindered.of_stands (stand node q member)

end Fleet.Unhindered
end Reconfig
