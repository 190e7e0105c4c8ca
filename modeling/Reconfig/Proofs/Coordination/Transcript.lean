/-
The calls of a pass that runs on a fleet, and how they were answered.

A message changes nothing but the node that it is sent to, and whether it gets there is up to
the faults, which no call changes. So where a pass sends a message to one node after the
other, what becomes of each of them can be said without the others.
-/
import Reconfig.Proofs.Coordination.Repair
import Reconfig.Proofs.Participant.Participation

namespace Reconfig

/-- A call of a pass, and whether the pass is told that the node did what it was asked for. -/
structure Call where
  node : Address
  phase : Phase
  answered : Bool
deriving DecidableEq

namespace Pass

variable {α β : Type}

/-- The calls that the pass makes when it runs, the first one first. -/
def transcript (patience : Patience) (clock : Clock) : Pass α → Fleet → List Call
  | .done _, _ => []
  | .discover nodes next, f =>
    let (f, answers) := f.discoverAll (some patience.discovery) nodes
    answers.map (fun entry => ⟨entry.1, .discover, entry.2.isOk⟩) ++
      (next answers).transcript patience clock f
  | .send node m next, f =>
    let (f, answer) := f.send node m (some patience.call) (clock f.calls.length)
    ⟨node, m.phase, answer.isOk⟩ :: (next answer).transcript patience clock f

@[simp] theorem run_pure (patience : Patience) (clock : Clock) (a : α) (f : Fleet) :
    (pure a : Pass α).run patience clock f = (f, a) := rfl

@[simp] theorem transcript_pure (patience : Patience) (clock : Clock) (a : α) (f : Fleet) :
    (pure a : Pass α).transcript patience clock f = [] := rfl

theorem transcript_bind (patience : Patience) (clock : Clock) (pass : Pass α)
    (next : α → Pass β) (f : Fleet) : (pass >>= next).transcript patience clock f =
      pass.transcript patience clock f ++
        (next (pass.run patience clock f).2).transcript patience clock
          (pass.run patience clock f).1 := by
  induction pass generalizing f with
  | done a => rfl
  | discover nodes more ih =>
    exact (congrArg _ (ih _ _)).trans (List.append_assoc _ _ _).symm
  | send node message more ih => exact congrArg _ (ih _ _)

end Pass

namespace Fleet

variable {f g : Fleet} {node other : Address} {m : Message} {limit : Option Span} {now : Timestamp}
  {clock : Clock}

/-! ## One call -/

theorem calls_send (f : Fleet) (node : Address) (m : Message) (limit : Option Span)
    (now : Timestamp) : (f.send node m limit now).1.calls = f.calls ++ [(node, m.phase)] := by
  unfold send
  cases f.reach node m.phase limit <;> rfl

theorem faults_send (f : Fleet) (node : Address) (m : Message) (limit : Option Span)
    (now : Timestamp) : (f.send node m limit now).1.faults = f.faults := by
  unfold send
  cases f.reach node m.phase limit <;> rfl

theorem member?_send_of_ne (f : Fleet) (m : Message) (limit : Option Span) (now : Timestamp)
    (different : other ≠ node) : (f.send node m limit now).1.member? other = f.member? other := by
  unfold send
  cases f.reach node m.phase limit with
  | error e => rfl
  | ok p =>
    dsimp only
    rw [member?_deliver, if_neg different, member?_record]

theorem send_receives {p : Participant} (member : f.member? node = some p) (m : Message)
    (limit : Option Span) (now : Timestamp) : ∃ q,
      (f.send node m limit now).1.member? node = some q ∧
        p.Receives m now q (f.send node m limit now).2.isOk := by
  unfold send
  cases reached : f.reach node m.phase limit with
  | error e => exact ⟨p, member, .lost⟩
  | ok r =>
    obtain rfl := Option.some.inj (member.symm.trans (reach_member reached))
    refine ⟨(p.handle m now).1, ?_, ?_⟩
    · dsimp only
      rw [member?_deliver, if_pos rfl]
    · have same : ((p.handle m now).2.mapError CallError.rejected).isOk =
          (p.handle m now).2.isOk := by
        cases (p.handle m now).2 <;> rfl
      show p.Receives m now (p.handle m now).1
        ((p.handle m now).2.mapError CallError.rejected).isOk
      rw [same]
      exact .handled

/-! ## One message for each of several nodes -/

/-- Sends each node its message, whatever the others answer. -/
def sendAll (f : Fleet) (message : Address → Message) (limit : Option Span) (clock : Clock) :
    List Address → Fleet × List (Address × Except CallError Unit)
  | [] => (f, [])
  | node :: rest =>
    let (f, answer) := f.send node (message node) limit (clock f.calls.length)
    let (f, answers) := sendAll f message limit clock rest
    (f, (node, answer) :: answers)

variable {nodes : List Address}

/-- Every node gets its turn, also one that is named twice. -/
theorem nodes_sendAll (f : Fleet) (message : Address → Message) (limit : Option Span)
    (clock : Clock) (nodes : List Address) :
    (f.sendAll message limit clock nodes).2.map (·.1) = nodes := by
  induction nodes generalizing f with
  | nil => rfl
  | cons node rest ih => exact congrArg _ (ih _)

/-- Each of the nodes gets its message at some time, with this answer, and no other node is
touched. -/
structure Told (f : Fleet) (message : Address → Message) (clock : Clock) (nodes : List Address)
    (answered : Address → Bool) (g : Fleet) : Prop where
  received : ∀ node ∈ nodes, ∀ p, f.member? node = some p → ∃ q n, g.member? node = some q ∧
    p.Receives (message node) (clock n) q (answered node)
  kept : ∀ node, node ∉ nodes → g.member? node = f.member? node

theorem told_send (f : Fleet) (message : Address → Message) (limit : Option Span)
    (clock : Clock) (node : Address) (n : Nat) :
    f.Told message clock [node] (fun _ => (f.send node (message node) limit (clock n)).2.isOk)
      (f.send node (message node) limit (clock n)).1 where
  received other mem p member := by
    obtain rfl := List.mem_singleton.1 mem
    obtain ⟨q, found, received⟩ := send_receives member (message other) limit (clock n)
    exact ⟨q, n, found, received⟩
  kept other outside := f.member?_send_of_ne _ _ _ fun same => outside (List.mem_singleton.2 same)

/-- Each of several nodes gets its message on its own, so it can be said of each node how it
answers. -/
theorem told_sendAll (f : Fleet) (message : Address → Message) (limit : Option Span)
    (clock : Clock) (distinct : nodes.Nodup) : ∃ answer : Address → Except CallError Unit,
    (f.sendAll message limit clock nodes).2 = nodes.map (fun node => (node, answer node)) ∧
      f.Told message clock nodes (fun node => (answer node).isOk)
        (f.sendAll message limit clock nodes).1 := by
  induction nodes generalizing f with
  | nil => exact ⟨fun _ => .ok (), rfl, nofun, fun _ _ => rfl⟩
  | cons first rest ih =>
    obtain ⟨absent, distinct⟩ := List.nodup_cons.1 distinct
    have alone := f.told_send message limit clock first f.calls.length
    obtain ⟨answer, answers, told⟩ :=
      ih (f.send first (message first) limit (clock f.calls.length)).1 distinct
    have first_kept := told.kept first absent
    refine ⟨Function.update answer first
      (f.send first (message first) limit (clock f.calls.length)).2, ?_, ?_, ?_⟩
    · have others : ∀ node ∈ rest, Function.update answer first
          (f.send first (message first) limit (clock f.calls.length)).2 node = answer node :=
        fun node mem => Function.update_of_ne (ne_of_mem_of_not_mem mem absent) _ _
      simp only [sendAll, answers, List.map_cons, Function.update_self]
      exact congrArg _ (List.map_congr_left fun node mem => by rw [others node mem])
    · intro node mem p member
      rcases List.mem_cons.1 mem with rfl | mem
      · obtain ⟨q, n, found, received⟩ := alone.received node List.mem_cons_self p member
        rw [Function.update_self]
        exact ⟨q, n, first_kept.trans found, received⟩
      · have apart : node ≠ first := ne_of_mem_of_not_mem mem absent
        have before := alone.kept node fun same => apart (List.mem_singleton.1 same)
        rw [Function.update_of_ne apart]
        exact told.received node mem p (before.trans member)
    · intro node outside
      rw [List.mem_cons, not_or] at outside
      have before := alone.kept node fun same => outside.1 (List.mem_singleton.1 same)
      exact (told.kept node outside.2).trans before

theorem Told.congr {message : Address → Message} {answered heard : Address → Bool}
    (told : f.Told message clock nodes answered g)
    (same : ∀ node ∈ nodes, answered node = heard node) : f.Told message clock nodes heard g where
  received node mem := same node mem ▸ told.received node mem
  kept := told.kept

theorem Told.perm {message : Address → Message} {answered : Address → Bool}
    {listed : List Address} (told : f.Told message clock nodes answered g)
    (same : nodes.Perm listed) : f.Told message clock listed answered g where
  received node mem := told.received node (same.mem_iff.2 mem)
  kept node outside := told.kept node fun mem => outside (same.mem_iff.1 mem)

/-! ## Discovery -/

theorem calls_discoverAll (f : Fleet) (limit : Option Span) (nodes : List Address) :
    (f.discoverAll limit nodes).1.calls = f.calls ++ nodes.map (·, .discover) := by
  induction nodes generalizing f with
  | nil => exact (List.append_nil _).symm
  | cons node rest ih =>
    refine (ih (f.discover node limit).1).trans ?_
    exact List.append_assoc f.calls [(node, .discover)] (rest.map (·, .discover))

theorem shown_of_discover {s : Snapshot} (answer : (f.discover node limit).2 = .ok s) :
    ∃ p, f.member? node = some p ∧ p.discover = .ok s := by
  unfold Fleet.discover at answer
  cases reached : f.reach node .discover limit with
  | error e =>
    rw [reached] at answer
    cases answer
  | ok p =>
    rw [reached] at answer
    exact ⟨p, reach_member reached, Outcome.mapError_eq_ok.1 answer⟩

/-- An answer with a snapshot is that of the node. -/
theorem shown_of_discoverAll {nodes : List Address} {s : Snapshot}
    (answer : (node, .ok s) ∈ (f.discoverAll limit nodes).2) :
    ∃ p, f.member? node = some p ∧ p.discover = .ok s := by
  induction nodes generalizing f with
  | nil => cases answer
  | cons first rest ih =>
    rcases List.mem_cons.1 answer with same | later
    · obtain ⟨rfl, found⟩ := Prod.mk.inj same
      exact shown_of_discover found.symm
    · have found : ∃ p, (f.discover first limit).1.member? node = some p ∧ p.discover = .ok s :=
        ih later
      exact found

end Fleet

/-- The transcript has the calls that the fleet remembers of the pass. -/
theorem Pass.calls_run {α : Type} (patience : Patience) (clock : Clock) (pass : Pass α)
    (f : Fleet) : (pass.run patience clock f).1.calls =
      f.calls ++ (pass.transcript patience clock f).map fun call => (call.node, call.phase) := by
  induction pass generalizing f with
  | done a => exact (List.append_nil _).symm
  | discover nodes next ih =>
    cases asked : f.discoverAll (some patience.discovery) nodes with
    | mk g answers =>
      have calls : g.calls = f.calls ++ nodes.map (·, .discover) := by
        rw [← f.calls_discoverAll (some patience.discovery) nodes, asked]
      have all : answers.map (·.1) = nodes := by
        rw [← (f.discoverAll_serves (some patience.discovery) nodes).1, asked]
      simp only [run, transcript, asked]
      rw [ih answers g, calls, ← all, List.append_assoc]
      simp only [List.map_append, List.map_map, Function.comp_def]
  | send node m next ih =>
    cases sent : f.send node m (some patience.call) (clock f.calls.length) with
    | mk g answer =>
      have calls : g.calls = f.calls ++ [(node, m.phase)] := by
        rw [← f.calls_send node m (some patience.call) (clock f.calls.length), sent]
      simp only [run, transcript, sent]
      rw [ih answer g, calls, List.append_assoc]
      rfl

end Reconfig
