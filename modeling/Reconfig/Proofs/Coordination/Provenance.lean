/-
Where the requests of the nodes come from.

A request is the doing of a pass whose prepare message its node accepted, and it
is closed by a message of a pass as well. What a pass has been shown of a node is
an earlier history of it, and still its history as long as the count is the same.
-/
import Reconfig.Proofs.Coordination.Histories
import Reconfig.Proofs.Coordination.Verdicts

namespace Reconfig

theorem mem_logOf {ι : Type} [DecidableEq ι] {i : ι} {trace : List (ι × Event)} {event : Event} :
    event ∈ logOf i trace ↔ (i, event) ∈ trace := by
  rw [logOf, List.mem_map]
  constructor
  · rintro ⟨⟨j, e⟩, mem, rfl⟩
    obtain ⟨mem, same⟩ := List.mem_filter.1 mem
    rw [beq_iff_eq] at same
    exact same ▸ mem
  · exact fun mem => ⟨_, List.mem_filter.2 ⟨mem, by simp⟩, rfl⟩

/-! ## What a log says of its messages -/

namespace Job

variable {job : Job} {log : List Event}

/-- A pass sends a prepare message only after it has found all nodes idle and level,
and to a node of which it has a snapshot. -/
theorem of_prepare (logs : job.Logs log) {node : Address} {m : Prepare}
    {delivery : Option (Timestamp × Answer)} {answer : Except CallError Unit}
    (mem : .sent node (.prepare m) delivery answer ∈ log) :
    ∃ sender nodes version head, job = .change sender m.uuid nodes m.change ∧
      m.version = version + 1 ∧
      (∀ other s, .asked other (.ok s) ∈ log → s.mode = .accepting ∧
        s.currentVersion = version ∧ s.committedHead = head) ∧
      ∃ s, .asked node (.ok s) ∈ log ∧ m.context.expected = s.count := by
  cases job with
  | recovery sender nodes target =>
    obtain ⟨result, logs⟩ := logs
    rcases recoveryPass_logs logs with questions | ⟨_, asks, sents, _, _, round, _, sent, rfl⟩
    · exact (questions _ mem).elim
    · rcases List.mem_append.1 mem with mem | mem
      · exact (round.isQuestion _ mem).elim
      · obtain ⟨_, _, _, same, -⟩ := sent _ mem
        cases same
  | change sender uuid nodes change =>
    obtain ⟨result, logs⟩ := logs
    rcases changePass_logs logs with questions |
      ⟨answers, asks, sents, version, counts, round, ready, counted, course, rfl⟩
    · exact (questions _ mem).elim
    · obtain ⟨-, current, head, rfl, level⟩ := Report.of_readyVersion ready
      have ⟨_, shown⟩ := Report.of_counts counted
      have snapshots : ∀ other s, .asked other (.ok s) ∈ asks ++ sents ↔
          (other, s) ∈ (Report.ofAnswers answers).responses := fun other s =>
        (round.asked_iff course.not_isQuestion).trans Report.mem_responses.symm
      rcases List.mem_append.1 mem with mem | mem
      · exact (round.isQuestion _ mem).elim
      · rcases course.of_mem mem with ⟨target, called, _, _, same, -⟩ | ⟨_, _, _, same, -⟩ |
          ⟨_, _, _, same, -⟩
        · cases same
          obtain ⟨s, response, count⟩ := shown target called
          refine ⟨sender, nodes, current, head, rfl, rfl, fun other s asked => ?_, s, ?_, count⟩
          · exact level _ ((snapshots other s).1 asked)
          · exact (snapshots target.1 s).2 response
        · cases same
        · cases same

end Job

namespace Evolves

variable {H H' : Histories} {event : Event}

theorem leads (evolves : Evolves H event H') (node : Address) :
    History.Leads (H node) (H' node) := by
  cases evolves with
  | asked => exact .refl
  | unanswered => exact .refl
  | ignored => exact .refl
  | @taken target _ _ _ _ h accepts =>
    by_cases same : node = target
    · subst same
      rw [Function.update_self]
      exact .single ⟨_, _, _, accepts⟩
    · rw [Function.update_of_ne same]
      exact .refl

theorem cases_at (evolves : Evolves H event H') (node : Address) : H' node = H node ∨
    ∃ limits m now answer, event = .sent node m (some (now, .ok ())) answer ∧
      History.Accepts limits (H node) m now (H' node) := by
  cases evolves with
  | asked => exact .inl rfl
  | unanswered => exact .inl rfl
  | ignored => exact .inl rfl
  | @taken target m now answer limits h accepts =>
    by_cases same : node = target
    · subst same
      rw [Function.update_self]
      exact .inr ⟨limits, m, now, answer, rfl, accepts⟩
    · exact .inl (Function.update_of_ne same _ _)

end Evolves

namespace Unfolds

variable {ι : Type} [DecidableEq ι] {jobs : ι → Job} {H₀ H : Histories}
  {trace : List (ι × Event)} {i : ι} {node : Address}

theorem leads (unfolds : Unfolds jobs H₀ trace H) (node : Address) :
    History.Leads (H₀ node) (H node) := by
  induction unfolds with
  | start => exact .refl
  | call _ _ evolves ih => exact ih.trans (evolves.leads node)

theorem logs (unfolds : Unfolds jobs H₀ trace H) (made : logOf i trace ≠ []) :
    (jobs i).Logs (logOf i trace) := by
  induction unfolds with
  | start => exact absurd rfl made
  | @call earlier _ _ j event _ allowed _ ih =>
    by_cases same : j = i
    · subst same
      have : logOf j (earlier ++ [(j, event)]) = logOf j earlier ++ [event] := by
        simp [logOf]
      rw [this]
      exact allowed
    · have : logOf i (earlier ++ [(j, event)]) = logOf i earlier := by
        simp [logOf, same]
      rw [this] at made ⊢
      exact ih made

/-- A snapshot shows the history that its node had when it was asked. -/
theorem asked_at (unfolds : Unfolds jobs H₀ trace H) {s : Snapshot}
    (found : (i, .asked node (.ok s)) ∈ trace) :
    ∃ earlier H', Unfolds jobs H₀ earlier H' ∧ earlier ⊆ trace ∧
      (jobs i).Logs (logOf i earlier ++ [.asked node (.ok s)]) ∧ s.Shows (H' node) ∧
      History.Leads (H' node) (H node) := by
  induction unfolds with
  | start => cases found
  | call unfolds allowed evolves ih =>
    rcases List.mem_append.1 found with found | found
    · obtain ⟨earlier, H', before, within, asked, shows, after⟩ := ih found
      exact ⟨earlier, H', before, fun _ mem => List.mem_append_left _ (within mem), asked, shows,
        after.trans (evolves.leads node)⟩
    · cases List.mem_singleton.1 found
      cases evolves with
      | asked shows =>
        exact ⟨_, _, unfolds, fun _ mem => List.mem_append_left _ mem, allowed, shows, .refl⟩

theorem shown (unfolds : Unfolds jobs H₀ trace H) {s : Snapshot}
    (found : (i, .asked node (.ok s)) ∈ trace) :
    ∃ h, History.Leads (H₀ node) h ∧ s.Shows h ∧ History.Leads h (H node) := by
  obtain ⟨_, H', before, -, -, shows, after⟩ := unfolds.asked_at found
  exact ⟨H' node, before.leads node, shows, after⟩

theorem carried_uuid (unfolds : Unfolds jobs H₀ trace H) {m : Prepare} {now : Timestamp}
    {answer : Except CallError Unit}
    (carried : (i, .sent node (.prepare m) (some (now, .ok ())) answer) ∈ trace) :
    ∃ d ∈ H node, d.uuid = m.uuid := by
  induction unfolds with
  | start => cases carried
  | call _ _ evolves ih =>
    rcases List.mem_append.1 carried with carried | carried
    · exact (evolves.leads node).exists_uuid (ih carried)
    · cases List.mem_singleton.1 carried
      cases evolves with
      | taken accepts =>
        obtain ⟨result, -, -, -, -, -, rfl⟩ := accepts.of_prepare
        rw [Function.update_self]
        exact ⟨_, List.mem_cons_self, rfl⟩
      | ignored refused => exact absurd rfl (refused now)

/-- A request was there from the start, or its node accepted it from a pass that
had been shown the very history below it. -/
theorem made (unfolds : Unfolds jobs H₀ trace H) {above below : History} {d : ChangeDetails}
    (split : H node = above ++ d :: below) :
    (∃ above₀ d₀, H₀ node = above₀ ++ d₀ :: below ∧ d₀.uuid = d.uuid) ∨
      ∃ i m now answer s, (i, .sent node (.prepare m) (some (now, .ok ())) answer) ∈ trace ∧
        (i, .asked node (.ok s)) ∈ trace ∧ s.Shows below ∧
        d.uuid = m.uuid ∧ d.version = m.version ∧ d.change = m.change := by
  induction unfolds generalizing above d with
  | start => exact .inl ⟨above, d, split, rfl⟩
  | @call trace H H' i event earlier allowed evolves ih =>
    have old : ∀ {above : History} {e : ChangeDetails}, H node = above ++ e :: below →
        e.uuid = d.uuid → e.version = d.version → e.change = d.change →
        (∃ above₀ d₀, H₀ node = above₀ ++ d₀ :: below ∧ d₀.uuid = d.uuid) ∨
          ∃ j m now answer s,
            (j, .sent node (.prepare m) (some (now, .ok ())) answer) ∈ trace ++ [(i, event)] ∧
            (j, .asked node (.ok s)) ∈ trace ++ [(i, event)] ∧ s.Shows below ∧
            d.uuid = m.uuid ∧ d.version = m.version ∧ d.change = m.change := by
      intro above e split uuid version change
      rcases ih split with ⟨above₀, d₀, split, same⟩ | ⟨j, m, now, answer, s, sent, asked, rest⟩
      · exact .inl ⟨above₀, d₀, split, same.trans uuid⟩
      · rw [uuid, version, change] at rest
        exact .inr ⟨j, m, now, answer, s, List.mem_append_left _ sent,
          List.mem_append_left _ asked, rest⟩
    rcases evolves.cases_at node with same | ⟨limits, m, now, answer, rfl, accepts⟩
    · rw [same] at split
      exact old split rfl rfl rfl
    · generalize before : H node = h at accepts
      generalize after : H' node = h' at accepts split
      cases accepts with
      | @prepare _ m _ result fence =>
        cases above with
        | nil =>
          cases split
          have mem : (.sent node (.prepare m) (some (now, .ok ())) answer) ∈
            logOf i trace ++ [.sent node (.prepare m) (some (now, .ok ())) answer] := by simp
          obtain ⟨_, _, _, _, _, _, _, s, asked, count⟩ := Job.of_prepare allowed mem
          replace asked : (i, .asked node (.ok s)) ∈ trace := by
            rcases List.mem_append.1 asked with asked | asked
            · exact mem_logOf.1 asked
            · cases List.mem_singleton.1 asked
          obtain ⟨shown, -, shows, later⟩ := earlier.shown asked
          have still : shown = H node := by
            refine later.eq_of_messages ?_
            rw [← shows.count, ← count, ← fence, before]
          right
          refine ⟨i, m, now, answer, s, by simp, List.mem_append_left _ asked, ?_, rfl, rfl, rfl⟩
          rw [← before, ← still]
          exact shows
        | cons newest above =>
          cases split
          exact old before rfl rfl rfl
      | close =>
        cases above with
        | nil =>
          cases split
          exact old (before.trans (List.nil_append _).symm) rfl rfl rfl
        | cons newest above =>
          cases split
          exact old (before.trans (List.cons_append ..).symm) rfl rfl rfl

/-- A closed request was so from the start, or its node closed it for a pass. -/
theorem closed (unfolds : Unfolds jobs H₀ trace H) {d : ChangeDetails} (mem : d ∈ H node)
    (terminal : d.state ≠ .prepared) : d ∈ H₀ node ∨ ∃ i m now answer context,
      (i, .sent node m (some (now, .ok ())) answer) ∈ trace ∧
        m.closing? = some (context, d.uuid, d.state) := by
  induction unfolds with
  | start => exact .inl mem
  | @call trace H H' i event earlier allowed evolves ih =>
    have old : d ∈ H node → d ∈ H₀ node ∨ ∃ j m now answer context,
        (j, .sent node m (some (now, .ok ())) answer) ∈ trace ++ [(i, event)] ∧
          m.closing? = some (context, d.uuid, d.state) := by
      intro mem
      rcases ih mem with start | ⟨j, m, now, answer, context, sent, closing⟩
      · exact .inl start
      · exact .inr ⟨j, m, now, answer, context, List.mem_append_left _ sent, closing⟩
    rcases evolves.cases_at node with same | ⟨limits, m, now, answer, rfl, accepts⟩
    · rw [same] at mem
      exact old mem
    · generalize before : H node = h at accepts
      generalize after : H' node = h' at accepts mem
      cases accepts with
      | prepare =>
        rcases List.mem_cons.1 mem with rfl | mem
        · exact absurd rfl terminal
        · exact old (before ▸ mem)
      | @close e below _ _ context target closing =>
        rcases List.mem_cons.1 mem with rfl | mem
        · exact .inr ⟨i, m, now, answer, context, by simp, closing⟩
        · exact old (before ▸ List.mem_cons_of_mem _ mem)

end Unfolds
end Reconfig
