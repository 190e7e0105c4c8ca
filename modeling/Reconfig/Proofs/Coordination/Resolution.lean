/-
Changes that are committed on one node and rolled back on another.

A change pass and a recovery beside it know nothing of each other: what each may
still do on a node depends on the messages that this one node has accepted. So a
change can be closed in two ways. The recovery then acted on snapshots that were
out of date, or did not know of all nodes.
-/
import Reconfig.Proofs.Coordination.Convergence

namespace Reconfig

inductive Party where
  | changer
  | repairer
deriving DecidableEq

/-- A change pass, and beside it a recovery. -/
def rivals (sender : Sender) (uuid : Uuid) (nodes : List (Address × LogicalState))
    (change : Change) (operator : Sender) (asked : List Address) (target : ChangeState) :
    Party → Job
  | .changer => .change sender uuid nodes change
  | .repairer => .recovery operator asked target

/-- The node carried out this message of the party. -/
def Carried (trace : List (Party × Event)) (party : Party) (node : Address) (m : Message) : Prop :=
  ∃ now answer, (party, .sent node m (some (now, .ok ())) answer) ∈ trace

/-- No snapshot that the recovery got shows the change in this state. -/
def Unseen (trace : List (Party × Event)) (uuid : Uuid) (state : ChangeState) : Prop :=
  ∀ node s, (.repairer, .asked node (.ok s)) ∈ trace → s.stateOf? uuid ≠ some state

namespace History

theorem Leads.uuids_nodup {h h' : History} (leads : Leads h h')
    (distinct : (h.map (·.uuid)).Nodup) : (h'.map (·.uuid)).Nodup := by
  induction leads with
  | refl => exact distinct
  | tail _ step ih =>
    obtain ⟨limits, m, now, accepts⟩ := step
    cases accepts with
    | @prepare _ m _ result _ _ _ fresh =>
      refine List.nodup_cons.2 ⟨fun mem => ?_, ih⟩
      obtain ⟨d, mem, same⟩ := List.mem_map.1 mem
      exact fresh d mem same
    | close => exact ih

end History

namespace Unfolds

variable {sender operator : Sender} {uuid : Uuid} {nodes : List (Address × LogicalState)}
  {change : Change} {asked : List Address} {target : ChangeState} {H₀ H : Histories}
  {trace : List (Party × Event)} {node : Address}

theorem closed_by
    (unfolds : Unfolds (rivals sender uuid nodes change operator asked target) H₀ trace H)
    {d : ChangeDetails} (mem : d ∈ H node) (terminal : d.state ≠ .prepared)
    (new : d ∉ H₀ node) :
    (d.uuid = uuid ∧ d.state = .committed ∧
      ∃ context, Carried trace .changer node (.commit ⟨context, uuid⟩)) ∨
    (d.uuid = uuid ∧ d.state = .rolledBack ∧
      ∃ context, Carried trace .changer node (.rollback ⟨context, uuid⟩)) ∨
    (d.state = target ∧
      ∃ context, Carried trace .repairer node (.force ⟨context, d.uuid, target⟩)) := by
  rcases unfolds.closed mem terminal with start | ⟨party, m, now, answer, context, sent, closing⟩
  · exact absurd start new
  have logged := mem_logOf.2 sent
  have logs := unfolds.logs (List.ne_nil_of_mem logged)
  cases party with
  | changer =>
    rcases Job.change_sent logs logged with ⟨p, rfl, -⟩ | ⟨_, rfl⟩ | ⟨_, rfl⟩
    · cases closing
    · simp only [Message.closing?, Option.some.injEq, Prod.mk.injEq] at closing
      exact .inl ⟨closing.2.1.symm, closing.2.2.symm, _, now, answer, sent⟩
    · simp only [Message.closing?, Option.some.injEq, Prod.mk.injEq] at closing
      exact .inr (.inl ⟨closing.2.1.symm, closing.2.2.symm, _, now, answer, sent⟩)
  | repairer =>
    obtain ⟨u, _, rfl, closes, -⟩ := Job.recovery_sent logs logged
    rw [Message.closing?, if_neg closes] at closing
    simp only [Option.some.injEq, Prod.mk.injEq] at closing
    obtain ⟨-, rfl, state⟩ := closing
    exact .inr (.inr ⟨state.symm, _, now, answer, sent⟩)

/-- What a recovery was shown before it forced a change on a node. -/
theorem forced_unseen
    (unfolds : Unfolds (rivals sender uuid nodes change operator asked target) H₀ trace H)
    {u : Uuid} {context : Context}
    (forced : Carried trace .repairer node (.force ⟨context, u, target⟩)) :
    (∀ other ∈ asked, ∃ answer, (.repairer, .asked other answer) ∈ trace) ∧
    (∀ closed, closed ≠ .prepared → closed ≠ target → Unseen trace u closed) ∧
    (target = .committed → (∃ other s, (.repairer, .asked other (.ok s)) ∈ trace ∧
      s.stateOf? u = some .committed) ∨
        ∀ other s, (.repairer, .asked other (.ok s)) ∈ trace → s.latestUuid = some u) := by
  obtain ⟨now, answer, sent⟩ := forced
  have logged := mem_logOf.2 sent
  obtain ⟨u', _, same, -, all, unseen, latest⟩ :=
    Job.recovery_sent (unfolds.logs (List.ne_nil_of_mem logged)) logged
  cases same
  simp only [mem_logOf] at all unseen latest
  exact ⟨all, fun closed terminal different other s found =>
    unseen other s found closed terminal different, latest⟩

theorem shown_closed
    (unfolds : Unfolds (rivals sender uuid nodes change operator asked target) H₀ trace H)
    (distinct : ((H₀ node).map (·.uuid)).Nodup) {d : ChangeDetails} (mem : d ∈ H₀ node)
    (terminal : d.state ≠ .prepared) {s : Snapshot}
    (found : (.repairer, .asked node (.ok s)) ∈ trace) : s.stateOf? d.uuid = some d.state := by
  obtain ⟨h, before, shows, -⟩ := unfolds.shown found
  rw [shows.stateOf?, History.find?_uuid (before.uuids_nodup distinct)
    (before.mem_of_closed mem terminal)]
  rfl

/-- If all calls are answered, the change that a recovery commits is not one that
the change pass rolls back. -/
theorem not_rolledBack
    (unfolds : Unfolds (rivals sender uuid nodes change operator asked .committed) H₀ trace H)
    (fresh : ∀ node, ∀ d ∈ H₀ node, d.uuid ≠ uuid) (distinct : (nodes.map (·.1)).Nodup)
    (within : ∀ node ∈ nodes.map (·.1), node ∈ asked)
    (answered : ∀ call ∈ trace, call.2.Answered) {a b : Address} {context context' : Context}
    (forced : Carried trace .repairer a (.force ⟨context, uuid, .committed⟩)) :
    ¬ Carried trace .changer b (.rollback ⟨context', uuid⟩) := by
  rintro ⟨now, answer, sent⟩
  have logged := mem_logOf.2 sent
  have logs := unfolds.logs (List.ne_nil_of_mem logged)
  obtain ⟨x, called, m, delivery, e, failed, never⟩ := Job.change_rolledBack logs distinct logged
  obtain ⟨all, -, plan⟩ := unfolds.forced_unseen forced
  rcases plan rfl with ⟨other, s, found, recorded⟩ | latest
  · -- only the change pass could have committed the change before the snapshot
    obtain ⟨earlier, H', before, part, allowed, shows, -⟩ := unfolds.asked_at found
    rw [shows.stateOf?, Option.map_eq_some_iff] at recorded
    obtain ⟨d, newest, committed⟩ := recorded
    have mem := List.mem_of_find?_eq_some newest
    have same : d.uuid = uuid := by simpa using List.find?_some newest
    have new : d ∉ H₀ other := fun start => fresh other d start same
    rcases before.closed_by mem (by rw [committed]; decide) new with
      ⟨-, -, _, _, _, commit⟩ | ⟨-, rolledBack, -⟩ | ⟨-, _, _, _, force⟩
    · obtain ⟨-, none⟩ := Job.change_committed logs (mem_logOf.2 (part commit))
      exact none _ _ _ _ logged
    · rw [committed] at rolledBack
      cases rolledBack
    · exact Job.recovery_asked allowed _ (mem_logOf.2 force)
  · -- the node that did not prepare the change has it in no history
    obtain ⟨answer, found⟩ := all x (within x called)
    obtain ⟨s, rfl⟩ := answered _ found
    have shown := latest x s found
    obtain ⟨earlier, H', before, part, -, shows, -⟩ := unfolds.asked_at found
    rw [shows.latest] at shown
    cases history : H' x with
    | nil =>
      rw [history] at shown
      cases shown
    | cons d below =>
      rw [history] at shown
      have same : d.uuid = uuid := Option.some.inj shown
      rcases before.made (history.trans (List.nil_append _).symm) with
        ⟨above, d₀, start, origin⟩ | ⟨party, p, now, answer, _, prepared, -, -, origin, -⟩
      · refine fresh x d₀ ?_ (origin.trans same)
        rw [start]
        simp
      · cases party with
        | changer =>
          obtain ⟨_, _, delivered, back⟩ := answered _ (part prepared)
          cases delivered
          rw [back] at prepared
          exact never p _ (mem_logOf.2 (part prepared))
        | repairer =>
          have logged := mem_logOf.2 (part prepared)
          obtain ⟨_, _, same, -⟩ :=
            Job.recovery_sent (unfolds.logs (List.ne_nil_of_mem logged)) logged
          cases same

theorem commit_or_rollback
    (unfolds : Unfolds (rivals sender uuid nodes change operator asked target) H₀ trace H)
    {a b : Address} {m m' : Close} (commit : Carried trace .changer a (.commit m)) :
    ¬ Carried trace .changer b (.rollback m') := by
  obtain ⟨_, _, commit⟩ := commit
  rintro ⟨_, _, rollback⟩
  have logged := mem_logOf.2 commit
  obtain ⟨-, never⟩ := Job.change_committed (unfolds.logs (List.ne_nil_of_mem logged)) logged
  exact never _ _ _ _ (mem_logOf.2 rollback)

/-- A change that was closed from the start, and in another way than the recovery
closes it, is closed so on a node that did not answer the recovery. -/
theorem unanswered
    (unfolds : Unfolds (rivals sender uuid nodes change operator asked target) H₀ trace H)
    (distinct : ((H₀ node).map (·.uuid)).Nodup) (called : node ∈ asked) {d : ChangeDetails}
    (mem : d ∈ H₀ node) (terminal : d.state ≠ .prepared) (different : d.state ≠ target)
    {other : Address} {context : Context}
    (forced : Carried trace .repairer other (.force ⟨context, d.uuid, target⟩)) :
    ∃ e, (.repairer, .asked node (.error e)) ∈ trace := by
  obtain ⟨all, unseen, -⟩ := unfolds.forced_unseen forced
  obtain ⟨answer, found⟩ := all node called
  cases answer with
  | error e => exact ⟨e, found⟩
  | ok s =>
    exact absurd (unfolds.shown_closed distinct mem terminal found)
      (unseen d.state terminal different node s found)

/-- A recovery commits a change that another node has rolled back only where a call is
not answered. -/
theorem commit_unanswered
    (unfolds : Unfolds (rivals sender uuid nodes change operator asked .committed) H₀ trace H)
    (fresh : ∀ node, ∀ d ∈ H₀ node, d.uuid ≠ uuid) (distinct : (nodes.map (·.1)).Nodup)
    (within : ∀ node ∈ nodes.map (·.1), node ∈ asked)
    (once : ((H₀ node).map (·.uuid)).Nodup) (called : node ∈ asked) {e : ChangeDetails}
    (mem : e ∈ H node) (rolledBack : e.state = .rolledBack) {other : Address}
    {context : Context}
    (forced : Carried trace .repairer other (.force ⟨context, e.uuid, .committed⟩)) :
    ∃ call ∈ trace, ¬ call.2.Answered := by
  have closed : e.state ≠ .prepared := by
    rw [rolledBack]
    decide
  by_contra all
  have answered : ∀ call ∈ trace, call.2.Answered := by
    intro call mem
    by_contra silent
    exact all ⟨call, mem, silent⟩
  by_cases start : e ∈ H₀ node
  · obtain ⟨_, silent⟩ := unfolds.unanswered once called start closed
      (by rw [rolledBack]; decide) forced
    obtain ⟨_, answer⟩ := answered _ silent
    cases answer
  · rcases unfolds.closed_by mem closed start with
      ⟨-, state, -⟩ | ⟨own, -, _, rollback⟩ | ⟨state, -⟩
    · rw [rolledBack] at state
      cases state
    · rw [own] at forced
      exact unfolds.not_rolledBack fresh distinct within answered forced rollback
    · rw [rolledBack] at state
      cases state

theorem split_cases
    (unfolds : Unfolds (rivals sender uuid nodes change operator asked target) H₀ trace H)
    (fresh : ∀ node, ∀ d ∈ H₀ node, d.uuid ≠ uuid) (distinct : (nodes.map (·.1)).Nodup)
    (within : ∀ node ∈ nodes.map (·.1), node ∈ asked)
    (once : ∀ node, ((H₀ node).map (·.uuid)).Nodup) {a b : Address} (calledA : a ∈ asked)
    (calledB : b ∈ asked) {d e : ChangeDetails} (memA : d ∈ H a) (memB : e ∈ H b)
    (same : d.uuid = e.uuid) (committed : d.state = .committed)
    (rolledBack : e.state = .rolledBack) (whole : d ∈ H₀ a → e ∉ H₀ b) :
    (target = .rolledBack ∧
      (∃ context, Carried trace .repairer b (.force ⟨context, d.uuid, .rolledBack⟩)) ∧
      Unseen trace d.uuid .committed ∧
      ((d.uuid = uuid ∧ ∃ context, Carried trace .changer a (.commit ⟨context, uuid⟩)) ∨
        ∃ e, (.repairer, .asked a (.error e)) ∈ trace)) ∨
    (target = .committed ∧
      (∃ context, Carried trace .repairer a (.force ⟨context, d.uuid, .committed⟩)) ∧
      Unseen trace d.uuid .rolledBack ∧ ∃ call ∈ trace, ¬ call.2.Answered) := by
  have closedA : d.state ≠ .prepared := by
    rw [committed]
    decide
  have closedB : e.state ≠ .prepared := by
    rw [rolledBack]
    decide
  by_cases startA : d ∈ H₀ a
  · -- the change was committed before, so it is not that of the change pass
    rcases unfolds.closed_by memB closedB (whole startA) with
      ⟨-, state, -⟩ | ⟨own, -⟩ | ⟨state, context, forced⟩
    · rw [rolledBack] at state
      cases state
    · exact absurd (same.trans own) (fresh a d startA)
    · rw [rolledBack] at state
      subst state
      rw [← same] at forced
      obtain ⟨-, unseen, -⟩ := unfolds.forced_unseen forced
      have silent := unfolds.unanswered (once a) calledA startA closedA
        (by rw [committed]; decide) forced
      exact .inl ⟨rfl, ⟨context, forced⟩, unseen .committed (by decide) (by decide), .inr silent⟩
  · rcases unfolds.closed_by memA closedA startA with
      ⟨own, -, commit⟩ | ⟨-, state, -⟩ | ⟨state, context, forced⟩
    · have new : e ∉ H₀ b := fun start => fresh b e start (same.symm.trans own)
      obtain ⟨_, carried⟩ := commit
      rcases unfolds.closed_by memB closedB new with
        ⟨-, state, -⟩ | ⟨-, -, _, rollback⟩ | ⟨state, context, forced⟩
      · rw [rolledBack] at state
        cases state
      · exact absurd rollback (unfolds.commit_or_rollback carried)
      · rw [rolledBack] at state
        subst state
        rw [← same] at forced
        obtain ⟨-, unseen, -⟩ := unfolds.forced_unseen forced
        exact .inl ⟨rfl, ⟨context, forced⟩, unseen .committed (by decide) (by decide),
          .inl ⟨own, _, carried⟩⟩
    · rw [committed] at state
      cases state
    · rw [committed] at state
      subst state
      obtain ⟨-, unseen, -⟩ := unfolds.forced_unseen forced
      refine .inr ⟨rfl, ⟨context, forced⟩, unseen .rolledBack (by decide) (by decide), ?_⟩
      rw [same] at forced
      exact unfolds.commit_unanswered fresh distinct within (once b) calledB memB rolledBack forced

end Unfolds

/-! ## Two parties on two new nodes -/

theorem changePass_begins {sender : Sender} {uuid : Uuid} {nodes : List (Address × LogicalState)}
    {change : Change} {snapshots : Snapshots} {H : Histories} {version : Nat} {head : Option Uuid}
    {log : List Event} (shown : snapshots.Show (passivesFirst nodes) H)
    (nonempty : passivesFirst nodes ≠ []) (level : H.Level (passivesFirst nodes) version head)
    (carried : (ChangePass.carryOut sender uuid (version + 1) change
      ((passivesFirst nodes).map fun node => (node, (H node).messages))).Logs log none) :
    (changePass sender uuid nodes change).Logs
      (snapshots.map (fun entry => .asked entry.1 (.ok entry.2)) ++ log) none := by
  have ready := shown.readyVersion_eq nonempty level
  have counts := shown.counts_eq (fun _ mem => mem) []
  have round := Discovery.of_snapshots snapshots
  rw [shown.nodes] at round
  unfold changePass
  dsimp only
  rw [if_neg (by simpa using nonempty)]
  refine .asked round ?_
  simp only [Pass.bind, Report.ofAnswers_ok, ready, counts, Outcome.ok_bind, Outcome.pure_eq_ok]
  exact carried.bind_none _

theorem recoveryPass_begins {operator : Sender} {uuid : Uuid} {asked : List Address}
    {target : ChangeState} {snapshots : Snapshots} {H : Histories} {log : List Event}
    (shown : snapshots.Show asked H) (terminal : target ≠ .prepared)
    (plan : (Report.mk snapshots []).recoveryPlan target = .ok (.resolve uuid))
    (held : ∀ node ∈ asked, (H node).mode = .prepared ∧ (H node).latest = some uuid)
    (forced : (RecoveryPass.forceAll operator uuid target [] .none
      (asked.map fun node => (node, (H node).messages))).Logs log none) :
    (recoveryPass operator asked target).Logs
      (snapshots.map (fun entry => .asked entry.1 (.ok entry.2)) ++ log) none := by
  have round := Discovery.of_snapshots snapshots
  rw [shown.nodes] at round
  rw [recoveryPass, if_neg terminal]
  refine .asked round ?_
  simp only [Pass.bind, Report.ofAnswers_ok, plan, shown.holding_eq held]
  exact forced.bind_none _

theorem Fleet.pair_healthy : pair.Healthy (fun _ => []) [⟨"a:1"⟩, ⟨"b:1"⟩] where
  faults := rfl
  records := by
    constructor
    · intro node p member
      rcases pair_member member with ⟨-, rfl⟩ | ⟨-, rfl⟩
      · exact (Participant.start_keeps rfl (Participant.start_blank "a")).1
      · exact (Participant.start_keeps rfl (Participant.start_blank "b")).1
    · exact fun _ => .nil
  sturdy := by
    constructor
    · intro node p member
      rcases pair_member member with ⟨-, rfl⟩ | ⟨-, rfl⟩
      · exact ⟨_, rfl⟩
      · exact ⟨_, rfl⟩
    · intro node p member
      rcases pair_member member with ⟨-, rfl⟩ | ⟨-, rfl⟩
      · exact ⟨⟨none, rfl⟩, by simp⟩
      · exact ⟨⟨none, rfl⟩, by simp⟩
  member node mem := by
    simp only [List.mem_cons, List.not_mem_nil, or_false] at mem
    rcases mem with rfl | rfl
    · exact ⟨.blank "a", rfl⟩
    · exact ⟨.blank "b", rfl⟩
  short _ _ := Nat.zero_le _
  agree _ prepared := by cases prepared

/-- All of these nodes hold the founding change, and nothing else. -/
def Histories.Founding (H : Histories) (nodes : List Address) : Prop :=
  ∀ node ∈ nodes, ∃ d, H node = [d] ∧ d.uuid = ⟨.replicate 32 1⟩ ∧ d.state = .prepared

/-- The two new nodes prepare their founding change. The answer of the second one may
get lost. -/
theorem Fleet.Healthy.pair_prepared {start : Fleet}
    (healthy : start.Healthy (fun _ => []) [⟨"a:1"⟩, ⟨"b:1"⟩])
    (untouched : ∀ node, start.member? node = pair.member? node) {back : Except CallError Unit}
    (heard : back = .ok () ∨ ∃ e, back = .error e) :
    ∃ (asks : Snapshots) (f : Fleet) (H : Histories)
      (first second : Option (Timestamp × Answer)),
      asks.Show [⟨"a:1"⟩, ⟨"b:1"⟩] (fun _ => []) ∧ f.Healthy H [⟨"a:1"⟩, ⟨"b:1"⟩] ∧
      H.Founding [⟨"a:1"⟩, ⟨"b:1"⟩] ∧
      start.ServesAll (asks.map (fun entry => .asked entry.1 (.ok entry.2)) ++
        [.sent ⟨"a:1"⟩ (.prepare Participant.foundingPrepare) first (.ok ()),
          .sent ⟨"b:1"⟩ (.prepare Participant.foundingPrepare) second back]) f ∧
      (Event.sent ⟨"a:1"⟩ (.prepare Participant.foundingPrepare) first (.ok ())).Answered ∧
      (Event.sent ⟨"b:1"⟩ (.prepare Participant.foundingPrepare) second (.ok ())).Answered := by
  let now : Timestamp := ⟨2024, 1, 1, 0, 0, 0, 0⟩
  have readable : now.Legible := Timestamp.Storable.legible (by decide)
  have acceptedA : ((Participant.blank "a").handle (.prepare Participant.foundingPrepare)
      now).2 = .ok () := by decide +kernel
  have acceptedB : ((Participant.blank "b").handle (.prepare Participant.foundingPrepare)
      now).2 = .ok () := by decide +kernel
  have different : (⟨"b:1"⟩ : Address) ≠ ⟨"a:1"⟩ := by decide
  have memA : (⟨"a:1"⟩ : Address) ∈ [(⟨"a:1"⟩ : Address), ⟨"b:1"⟩] := by decide
  have memB : (⟨"b:1"⟩ : Address) ∈ [(⟨"a:1"⟩ : Address), ⟨"b:1"⟩] := by decide
  obtain ⟨asks, f₁, shown, healthy₁, asked, same⟩ := healthy.discoverAll_serves none
  have memberA : f₁.member? ⟨"a:1"⟩ = some (.blank "a") := (same _).trans (untouched _)
  obtain ⟨d, uuidD, openD, okA, healthy₂⟩ :=
    healthy₁.prepare memberA acceptedA (by decide) (by simp [Participant.blank, Processor.new])
      none readable
  obtain ⟨first, answeredA, servesA⟩ := healthy₁.send_serves memA
    (.prepare Participant.foundingPrepare) none now
  have memberB := (healthy₁.member?_send memA (.prepare Participant.foundingPrepare) none now
    different).trans ((same _).trans (untouched _))
  have emptyB : Function.update (fun _ : Address => ([] : History)) ⟨"a:1"⟩ [d] ⟨"b:1"⟩ = [] :=
    Function.update_of_ne different _ _
  obtain ⟨e, uuidE, openE, okB, healthy₃⟩ :=
    healthy₂.prepare memberB acceptedB (by rw [emptyB]; decide)
      (by simp [Participant.blank, Processor.new]) none readable
  obtain ⟨second, answeredB, servesB⟩ := healthy₂.send_serves memB
    (.prepare Participant.foundingPrepare) none now
  have servesA := servesA _ (.inl rfl)
  rw [okA] at answeredA servesA
  rw [okB] at answeredB servesB
  rw [emptyB] at healthy₃
  refine ⟨asks, _, _, first, second, shown, healthy₃, ?_,
    asked.append (.call servesA (.call (servesB back heard) .none)), answeredA, answeredB⟩
  simp only [Histories.Founding, List.mem_cons, List.not_mem_nil, or_false, forall_eq_or_imp,
    forall_eq]
  refine ⟨⟨d, ?_, uuidD, openD⟩, ⟨e, Function.update_self .., uuidE, openE⟩⟩
  rw [Function.update_of_ne different.symm, Function.update_self]

/-- One party closes a change on one node, and another party, which asked before that,
closes it on another node in its own way. -/
theorem Fleet.Healthy.close_apart {f : Fleet} {H : Histories} {nodes : List Address}
    (healthy : f.Healthy H nodes) {a b : Address} (memA : a ∈ nodes) (memB : b ∈ nodes)
    (different : b ≠ a) {d e : ChangeDetails} {belowA belowB : History}
    (shapeA : H a = d :: belowA) (openD : d.state = .prepared) (shapeB : H b = e :: belowB)
    (openE : e.state = .prepared) {m forceA forceB : Message}
    {contextM contextA contextB : Context} {rival target : ChangeState}
    (closesM : m.closing? = some (contextM, d.uuid, rival))
    (knowsM : History.messages (d :: belowA) = contextM.expected)
    (closesA : forceA.closing? = some (contextA, d.uuid, target))
    (closesB : forceB.closing? = some (contextB, e.uuid, target))
    (knowsB : History.messages (e :: belowB) = contextB.expected) :
    ∃ (asks : Snapshots) (f₁ f₂ f₃ : Fleet) (third fourth fifth : Option (Timestamp × Answer))
      (error : CallError) (p q : Participant),
      asks.Show nodes H ∧
      f.ServesAll (asks.map fun entry => .asked entry.1 (.ok entry.2)) f₁ ∧
      f₁.Serves (.sent a m third (.ok ())) f₂ ∧
      f₂.ServesAll [.sent a forceA fourth (.error error), .sent b forceB fifth (.ok ())] f₃ ∧
      (Event.sent a m third (.ok ())).Answered ∧
      (Event.sent a forceA fourth (.error error)).Answered ∧
      (Event.sent b forceB fifth (.ok ())).Answered ∧
      f₃.member? a = some p ∧ f₃.member? b = some q ∧
      p.space.stateOf? d.uuid = some rival ∧ q.space.stateOf? e.uuid = some target := by
  let now : Timestamp := ⟨2024, 1, 1, 0, 0, 1, 0⟩
  have readable : now.Legible := Timestamp.Storable.legible (by decide)
  obtain ⟨asks, f₁, shown, healthy₁, asked, -⟩ := healthy.discoverAll_serves none
  obtain ⟨okM, healthy₂⟩ := healthy₁.close memA shapeA openD closesM knowsM none readable
  obtain ⟨third, answeredM, servesM⟩ := healthy₁.send_serves memA m none now
  have idle : (Function.update H a (d.inState rival :: belowA) a).mode = .accepting := by
    rw [Function.update_self, History.mode]
    exact if_neg (Message.target_ne_prepared closesM)
  obtain ⟨error, failed, healthy₃⟩ := healthy₂.refuse memA idle closesA none readable
  obtain ⟨fourth, answeredA, servesA⟩ := healthy₂.send_serves memA forceA none now
  have untouched : Function.update H a (d.inState rival :: belowA) b = e :: belowB :=
    (Function.update_of_ne different _ _).trans shapeB
  obtain ⟨okB, healthy₄⟩ := healthy₃.close memB untouched openE closesB knowsB none readable
  obtain ⟨fifth, answeredB, servesB⟩ := healthy₃.send_serves memB forceB none now
  have servesM := servesM _ (.inl rfl)
  have servesA := servesA _ (.inl rfl)
  have servesB := servesB _ (.inl rfl)
  rw [okM] at answeredM servesM
  rw [failed] at answeredA servesA
  rw [okB] at answeredB servesB
  obtain ⟨p, memberP⟩ := healthy₄.member a memA
  obtain ⟨q, memberQ⟩ := healthy₄.member b memB
  have keepsP := healthy₄.records.keeps memberP
  have keepsQ := healthy₄.records.keeps memberQ
  rw [Function.update_of_ne different.symm, Function.update_self] at keepsP
  rw [Function.update_self] at keepsQ
  exact ⟨asks, f₁, _, _, third, fourth, fifth, error, p, q, shown, asked, servesM,
    .call servesA (.call servesB .none), answeredM, answeredA, answeredB, memberP, memberQ,
    keepsP.stateOf?_eq_some.2 ⟨_, List.mem_cons_self, rfl, rfl⟩,
    keepsQ.stateOf?_eq_some.2 ⟨_, List.mem_cons_self, rfl, rfl⟩⟩

/-- A founding pass over the two new nodes, and beside it a recovery. -/
def Job.foundingRivals (target : ChangeState) : Party → Job :=
  rivals ⟨"east", "ops"⟩ ⟨.replicate 32 1⟩ [(⟨"a:1"⟩, .passive), (⟨"b:1"⟩, .active)]
    Participant.founding ⟨"west", "ops"⟩ [⟨"a:1"⟩, ⟨"b:1"⟩] target

theorem Job.changer_logs {target : ChangeState} {asks : Snapshots} {log : List Event}
    (shown : asks.Show [⟨"a:1"⟩, ⟨"b:1"⟩] fun _ => [])
    (course : (ChangePass.carryOut ⟨"east", "ops"⟩ ⟨.replicate 32 1⟩ 1 Participant.founding
      [(⟨"a:1"⟩, 0), (⟨"b:1"⟩, 0)]).Logs log none) :
    (foundingRivals target .changer).Logs
      (asks.map (fun entry => .asked entry.1 (.ok entry.2)) ++ log) :=
  ⟨none, changePass_begins shown (by decide) (fun _ _ => ⟨rfl, rfl, rfl⟩) course⟩

/-- The first message of the recovery to a node that has prepared the change. -/
def Job.foundingForce (target : ChangeState) : Message :=
  .force ⟨Sender.context ⟨"west", "ops"⟩ 1, ⟨.replicate 32 1⟩, target⟩

theorem Job.repairer_logs {target : ChangeState} {asks : Snapshots} {H : Histories}
    (terminal : target ≠ .prepared) (shown : asks.Show [⟨"a:1"⟩, ⟨"b:1"⟩] H)
    (held : H.Founding [⟨"a:1"⟩, ⟨"b:1"⟩]) (fourth fifth : Option (Timestamp × Answer))
    (back : Except CallError Unit) :
    (foundingRivals target .repairer).Logs
      (asks.map (fun entry => .asked entry.1 (.ok entry.2)) ++
        [.sent ⟨"a:1"⟩ (foundingForce target) fourth back,
          .sent ⟨"b:1"⟩ (foundingForce target) fifth (.ok ())]) := by
  have level : Histories.Level (fun _ => []) [⟨"a:1"⟩, ⟨"b:1"⟩] 0 none :=
    fun _ _ => ⟨rfl, rfl, rfl⟩
  have pending : Pending [⟨"a:1"⟩, ⟨"b:1"⟩] ⟨.replicate 32 1⟩ (fun _ => []) H .rolledBack := by
    refine ⟨.inr rfl, by simp, fun node mem => ?_, nofun⟩
    obtain ⟨d, shape, uuid, inFlight⟩ := held node mem
    exact .inr ⟨d, shape, uuid, .inl inFlight⟩
  have prepared : ∀ node ∈ [(⟨"a:1"⟩ : Address), ⟨"b:1"⟩], (H node).mode = .prepared ∧
      (H node).latest = some ⟨.replicate 32 1⟩ ∧ (H node).messages = 1 := by
    intro node mem
    obtain ⟨d, shape, uuid, inFlight⟩ := held node mem
    rw [shape, History.latest_cons, uuid, History.messages_cons, if_pos inFlight]
    exact ⟨History.mode_eq_prepared_iff.2 ⟨d, [], rfl, inFlight⟩, rfl, rfl⟩
  have plan := pending.plan_of_prepared level shown (by simp)
    (fun node mem => (prepared node mem).1) target []
  refine ⟨none, recoveryPass_begins shown terminal plan
    (fun node mem => ⟨(prepared node mem).1, (prepared node mem).2.1⟩) ?_⟩
  simp only [List.map_cons, List.map_nil, (prepared ⟨"a:1"⟩ (by simp)).2.2,
    (prepared ⟨"b:1"⟩ (by simp)).2.2]
  cases back with
  | ok => exact .sent (.sent .stopped)
  | error e => exact .sent (.sent .stopped)

theorem Coordinated.turns {jobs : Party → Job} {start f₁ f₂ f₃ f₄ : Fleet}
    {first second third fourth : List Event} (served₁ : start.ServesAll first f₁)
    (served₂ : f₁.ServesAll second f₂) (served₃ : f₂.ServesAll third f₃)
    (served₄ : f₃.ServesAll fourth f₄) (changer : (jobs .changer).Logs (first ++ third))
    (repairer : (jobs .repairer).Logs (second ++ fourth)) :
    Coordinated jobs start (first.map (.changer, ·) ++ second.map (.repairer, ·) ++
      third.map (.changer, ·) ++ fourth.map (.repairer, ·)) f₄ := by
  have run : Coordinated jobs start (first.map (.changer, ·)) f₁ :=
    Coordinated.calls .start served₁ changer.of_append
  have run := run.calls (i := .repairer) served₂
    (by simpa [logOf_map] using repairer.of_append)
  have run := run.calls (i := .changer) served₃
    (by simpa [logOf_append, logOf_map] using changer)
  exact run.calls (i := .repairer) served₄
    (by simpa [logOf_append, logOf_map] using repairer)

/-- The recovery asks when both nodes are prepared. Then the change pass closes the change
on the first node, and after that the recovery closes it on the second one. -/
theorem Coordinated.race {rival target : ChangeState} {m : Message} {context : Context}
    {back : Except CallError Unit}
    (closing : m.closing? = some (context, ⟨.replicate 32 1⟩, rival))
    (knows : context.expected = 1) (terminal : target ≠ .prepared)
    (heard : back = .ok () ∨ ∃ e, back = .error e)
    (course : ∀ first second third, (ChangePass.carryOut ⟨"east", "ops"⟩ ⟨.replicate 32 1⟩ 1
      Participant.founding [(⟨"a:1"⟩, 0), (⟨"b:1"⟩, 0)]).Logs
        [.sent ⟨"a:1"⟩ (.prepare Participant.foundingPrepare) first (.ok ()),
          .sent ⟨"b:1"⟩ (.prepare Participant.foundingPrepare) second back,
          .sent ⟨"a:1"⟩ m third (.ok ())] none) :
    ∃ trace f p q, Coordinated (Job.foundingRivals target) Fleet.pair trace f ∧
      (back = .ok () → ∀ call ∈ trace, call.2.Answered) ∧
      f.member? ⟨"a:1"⟩ = some p ∧ f.member? ⟨"b:1"⟩ = some q ∧
      p.space.stateOf? ⟨.replicate 32 1⟩ = some rival ∧
      q.space.stateOf? ⟨.replicate 32 1⟩ = some target := by
  obtain ⟨asks, f, H, first, second, shown, healthy, held, served, answered₁, answered₂⟩ :=
    Fleet.pair_healthy.pair_prepared (fun _ => rfl) heard
  obtain ⟨d, shapeA, uuidD, openD⟩ := held ⟨"a:1"⟩ (by simp)
  obtain ⟨e, shapeB, uuidE, openE⟩ := held ⟨"b:1"⟩ (by simp)
  have closes : (Job.foundingForce target).closing? =
      some (Sender.context ⟨"west", "ops"⟩ 1, ⟨.replicate 32 1⟩, target) := if_neg terminal
  obtain ⟨asks', f₁, f₂, f₃, third, fourth, fifth, error, p, q, shown', asked, closed, forced,
    answered₃, answered₄, answered₅, memberP, memberQ, closedA, closedB⟩ :=
    healthy.close_apart (by simp) (by simp) (by decide) shapeA openD shapeB openE
      (closing.trans (by rw [uuidD])) (by rw [History.messages_cons, if_pos openD, knows]; rfl)
      (closes.trans (by rw [uuidD])) (closes.trans (by rw [uuidE]))
      (by rw [History.messages_cons, if_pos openE]; rfl)
  rw [uuidD] at closedA
  rw [uuidE] at closedB
  have changer : (Job.foundingRivals target .changer).Logs _ :=
    Job.changer_logs shown (course first second third)
  have repairer := Job.repairer_logs terminal shown' held fourth fifth (.error error)
  rw [show ∀ x y z : Event, [x, y, z] = [x, y] ++ [z] from fun _ _ _ => rfl,
    ← List.append_assoc] at changer
  have run := Coordinated.turns served asked (.call closed .none) forced changer repairer
  refine ⟨_, f₃, p, q, run, fun all call mem => ?_, memberP, memberQ, closedA, closedB⟩
  subst all
  simp only [List.mem_append, List.mem_map, List.mem_cons, List.not_mem_nil, or_false] at mem
  rcases mem with ((⟨event, mem, rfl⟩ | ⟨event, mem, rfl⟩) | ⟨event, rfl, rfl⟩) |
    ⟨event, mem, rfl⟩
  · rcases mem with ⟨entry, -, rfl⟩ | rfl | rfl
    · exact ⟨entry.2, rfl⟩
    · exact answered₁
    · exact answered₂
  · obtain ⟨entry, -, rfl⟩ := mem
    exact ⟨entry.2, rfl⟩
  · exact answered₃
  · rcases mem with rfl | rfl
    · exact answered₄
    · exact answered₅

theorem Coordinated.race_commit : ∃ trace f p q,
    Coordinated (Job.foundingRivals .rolledBack) Fleet.pair trace f ∧
      (∀ call ∈ trace, call.2.Answered) ∧
      f.member? ⟨"a:1"⟩ = some p ∧ f.member? ⟨"b:1"⟩ = some q ∧
      p.space.stateOf? ⟨.replicate 32 1⟩ = some .committed ∧
      q.space.stateOf? ⟨.replicate 32 1⟩ = some .rolledBack := by
  have closing : (Message.commit ⟨Sender.context ⟨"east", "ops"⟩ 1,
    ⟨.replicate 32 1⟩⟩).closing? = some (_, ⟨.replicate 32 1⟩, _) := rfl
  obtain ⟨trace, f, p, q, run, answered, rest⟩ :=
    race closing rfl (show ChangeState.rolledBack ≠ .prepared by decide) (.inl rfl)
      fun _ _ _ => .sent (.sent (.sent .stopped))
  exact ⟨trace, f, p, q, run, answered rfl, rest⟩

/-! ## Split changes -/

/-- Two nodes of the fleet have closed one change in different ways. -/
def Fleet.Splits (f : Fleet) (uuid : Uuid) (a b : Address) : Prop :=
  ∃ p q, f.member? a = some p ∧ f.member? b = some q ∧
    p.space.stateOf? uuid = some .committed ∧ q.space.stateOf? uuid = some .rolledBack

/-- Beside a change pass, a recovery can only split a change that it closes itself, and
of which no snapshot told it the contrary. A recovery that rolls back does so where the
change pass commits, or with a node that did not answer; and one that commits does so
only if some call is not answered. -/
theorem Coordinated.race_of_splits {sender operator : Sender} {uuid : Uuid}
    {nodes : List (Address × LogicalState)} {change : Change} {asked : List Address}
    {target : ChangeState} {before after : Fleet} {trace : List (Party × Event)}
    (reached : ∀ node p, before.member? node = some p → p.Reached ∧ node ∈ asked)
    (distinct : (nodes.map (·.1)).Nodup) (same : asked.Perm (nodes.map (·.1)))
    (fresh : ∀ node p, before.member? node = some p → p.space.requestRecord? uuid = none)
    (whole : ∀ u a b, ¬ before.Splits u a b)
    (run : Coordinated (rivals sender uuid nodes change operator asked target) before trace after)
    {u : Uuid} {a b : Address} (splits : after.Splits u a b) :
    (target = .rolledBack ∧
      (∃ context, Carried trace .repairer b (.force ⟨context, u, .rolledBack⟩)) ∧
      Unseen trace u .committed ∧
      ((u = uuid ∧ ∃ context, Carried trace .changer a (.commit ⟨context, uuid⟩)) ∨
        ∃ e, (.repairer, .asked a (.error e)) ∈ trace)) ∨
    (target = .committed ∧
      (∃ context, Carried trace .repairer a (.force ⟨context, u, .committed⟩)) ∧
      Unseen trace u .rolledBack ∧ ∃ call ∈ trace, ¬ call.2.Answered) := by
  obtain ⟨H₀, records₀, none⟩ :=
    Fleet.records_of_reached fun node p member => (reached node p member).1
  have member : ∀ {node d}, d ∈ H₀ node → ∃ p, before.member? node = some p := by
    intro node d mem
    cases found : before.member? node with
    | some p => exact ⟨p, rfl⟩
    | none =>
      rw [none node found] at mem
      cases mem
  have fresh₀ : ∀ node, ∀ d ∈ H₀ node, d.uuid ≠ uuid := by
    rintro node d mem rfl
    obtain ⟨p, found⟩ := member mem
    have stored := (records₀.keeps found).requestRecord?_of_mem mem
    rw [fresh node p found] at stored
    cases stored
  have once : ∀ node, ((H₀ node).map (·.uuid)).Nodup := by
    intro node
    cases found : before.member? node with
    | some p => exact (records₀.sound found).uuids_nodup
    | none =>
      rw [none node found]
      exact List.nodup_nil
  obtain ⟨H, unfolds, records, -⟩ := run.unfolds records₀
  obtain ⟨p, q, memberA, memberB, storedA, storedB⟩ := splits
  obtain ⟨d, memA, rfl, committed⟩ := (records.keeps memberA).stateOf?_eq_some.1 storedA
  obtain ⟨e, memB, sameUuid, rolledBack⟩ := (records.keeps memberB).stateOf?_eq_some.1 storedB
  have called : ∀ {node p}, after.member? node = some p → node ∈ asked := by
    intro node p found
    obtain ⟨q, found₀⟩ := run.member_before found
    exact (reached node q found₀).2
  refine unfolds.split_cases fresh₀ distinct (fun _ => same.mem_iff.2) once (called memberA)
    (called memberB) memA memB sameUuid.symm committed rolledBack fun startA startB => ?_
  obtain ⟨p₀, foundA⟩ := member startA
  obtain ⟨q₀, foundB⟩ := member startB
  exact whole d.uuid a b ⟨p₀, q₀, foundA, foundB,
    (records₀.keeps foundA).stateOf?_eq_some.2 ⟨d, startA, rfl, committed⟩,
    (records₀.keeps foundB).stateOf?_eq_some.2 ⟨e, startB, sameUuid, rolledBack⟩⟩

theorem Coordinated.founding_race_of_splits : ∃ trace f,
    Coordinated (Job.foundingRivals .rolledBack) Fleet.pair trace f ∧
    f.Splits ⟨.replicate 32 1⟩ ⟨"a:1"⟩ ⟨"b:1"⟩ ∧
    (∃ context, Carried trace .repairer ⟨"b:1"⟩
      (.force ⟨context, ⟨.replicate 32 1⟩, .rolledBack⟩)) ∧
    Unseen trace ⟨.replicate 32 1⟩ .committed ∧
    ∃ context, Carried trace .changer ⟨"a:1"⟩ (.commit ⟨context, ⟨.replicate 32 1⟩⟩) := by
  obtain ⟨trace, f, p, q, run, answered, memberA, memberB, closedA, closedB⟩ := race_commit
  have splits : f.Splits ⟨.replicate 32 1⟩ ⟨"a:1"⟩ ⟨"b:1"⟩ :=
    ⟨p, q, memberA, memberB, closedA, closedB⟩
  have new : ∀ {node p}, Fleet.pair.member? node = some p → p.space.Keeps [] :=
    Fleet.pair_healthy.records.keeps
  have cases := race_of_splits (fun node p member => by
      rcases Fleet.pair_member member with ⟨rfl, rfl⟩ | ⟨rfl, rfl⟩
      · exact ⟨.start rfl (Participant.start_blank "a"), by simp⟩
      · exact ⟨.start rfl (Participant.start_blank "b"), by simp⟩)
    (by decide) (.refl _)
    (fun node p member => by
      cases stored : p.space.requestRecord? ⟨.replicate 32 1⟩ with
      | none => rfl
      | some r =>
        obtain ⟨d, mem, -⟩ := (new member).mem_of_requestRecord? stored
        cases mem)
    (fun u a b => by
      rintro ⟨p, q, member, -, stored, -⟩
      obtain ⟨d, mem, -⟩ := (new member).stateOf?_eq_some.1 stored
      cases mem)
    run splits
  rcases cases with ⟨-, forced, unseen, ⟨-, commit⟩ | ⟨e, silent⟩⟩ | ⟨other, -⟩
  · exact ⟨trace, f, run, splits, forced, unseen, commit⟩
  · obtain ⟨s, answer⟩ := answered _ silent
    cases answer
  · cases other

/-- A change can be split on two new nodes: where the change pass commits it and the
recovery rolls it back, all calls being answered, and where the recovery commits it and
the change pass, which has missed an answer, rolls it back. -/
theorem Coordinated.founding_splits :
    (∃ trace f, Coordinated (Job.foundingRivals .rolledBack) Fleet.pair trace f ∧
      (∀ call ∈ trace, call.2.Answered) ∧ f.Splits ⟨.replicate 32 1⟩ ⟨"a:1"⟩ ⟨"b:1"⟩) ∧
    ∃ trace f, Coordinated (Job.foundingRivals .committed) Fleet.pair trace f ∧
      f.Splits ⟨.replicate 32 1⟩ ⟨"b:1"⟩ ⟨"a:1"⟩ := by
  constructor
  · obtain ⟨trace, f, p, q, run, answered, memberA, memberB, closedA, closedB⟩ :=
      race_commit
    exact ⟨trace, f, run, answered, p, q, memberA, memberB, closedA, closedB⟩
  · have closing : (Message.rollback ⟨Sender.context ⟨"east", "ops"⟩ 1,
      ⟨.replicate 32 1⟩⟩).closing? = some (_, ⟨.replicate 32 1⟩, _) := rfl
    obtain ⟨trace, f, p, q, run, -, memberA, memberB, closedA, closedB⟩ :=
      race closing rfl (show ChangeState.committed ≠ .prepared by decide)
        (.inr ⟨.timeout, rfl⟩) fun _ _ _ => .sent (.sent (.sent .stopped))
    exact ⟨trace, f, run, q, p, memberB, memberA, closedB, closedA⟩

end Reconfig
