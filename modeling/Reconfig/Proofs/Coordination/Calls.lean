/-
Coordinators at work on one fleet, call by call.

Each coordinator runs one pass. Its messages go out in the order of the pass, and
the questions of one round of discovery in any order. Between two calls of a
coordinator the others may make theirs. A call may get lost on its way to the
node or back, and a coordinator may stop after any call.
-/
import Reconfig.Coordination.Fleet
import Reconfig.Coordination.RecoveryPass

namespace Reconfig

/-- One call, and what became of it. -/
inductive Event where
  | asked (node : Address) (answer : Except CallError Snapshot)
  /-- A message comes with the time at which it got to the node and what the node
  answered, if it got there, and with the answer that got back. -/
  | sent (node : Address) (message : Message) (delivery : Option (Timestamp × Answer))
      (answer : Except CallError Unit)

namespace Event

def IsQuestion : Event → Prop
  | .asked .. => True
  | .sent .. => False

/-- The call got to the node, and its answer got back. -/
def Answered : Event → Prop
  | .asked _ answer => ∃ s, answer = .ok s
  | .sent _ _ delivery answer => ∃ now a, delivery = some (now, a) ∧ answer = a.mapError .rejected

/-- If the call is a message that got to its node, it did so at such a time. -/
def At (time : Timestamp → Prop) : Event → Prop
  | .asked .. => True
  | .sent _ _ delivery _ => ∀ now a, delivery = some (now, a) → time now

theorem At.mono {early late : Timestamp → Prop} (weaker : ∀ t, early t → late t) {event : Event}
    (timed : event.At early) : event.At late := by
  cases event with
  | asked => trivial
  | sent => exact fun now a got => weaker now (timed now a got)

end Event

/-- The questions of one round of discovery, in the order in which they were
answered. -/
structure Discovery (nodes : List Address)
    (answers : List (Address × Except CallError Snapshot)) (asks : List Event) : Prop where
  all : answers.map (·.1) = nodes
  order : asks.Perm (answers.map fun answer => .asked answer.1 answer.2)

/-- The log that a coordinator may have of its pass, with the result if the pass
has come to its end. -/
inductive Pass.Logs {α : Type} : Pass α → List Event → Option α → Prop
  | stopped {pass : Pass α} : Logs pass [] none
  | done {result : α} : Logs (.done result) [] (some result)
  | asking {nodes : List Address} {next : List (Address × Except CallError Snapshot) → Pass α}
      {answers : List (Address × Except CallError Snapshot)} {asks log : List Event}
      (round : Discovery nodes answers asks) (made : log <+: asks) :
      Logs (.discover nodes next) log none
  | asked {nodes : List Address} {next : List (Address × Except CallError Snapshot) → Pass α}
      {answers : List (Address × Except CallError Snapshot)} {asks log : List Event}
      {result : Option α} (round : Discovery nodes answers asks)
      (rest : Logs (next answers) log result) : Logs (.discover nodes next) (asks ++ log) result
  | sent {node : Address} {message : Message} {next : Except CallError Unit → Pass α}
      {delivery : Option (Timestamp × Answer)} {answer : Except CallError Unit}
      {log : List Event} {result : Option α} (rest : Logs (next answer) log result) :
      Logs (.send node message next) (.sent node message delivery answer :: log) result

/-- What a call does to the fleet. -/
inductive Fleet.Serves : Fleet → Event → Fleet → Prop
  | asked {f : Fleet} {node : Address} {p : Participant} {s : Snapshot}
      (member : f.member? node = some p) (found : p.discover = .ok s) :
      Serves f (.asked node (.ok s)) (f.record node .discover)
  | unanswered {f : Fleet} {node : Address} {e : CallError} :
      Serves f (.asked node (.error e)) (f.record node .discover)
  | delivered {f : Fleet} {node : Address} {p : Participant} {m : Message} {now : Timestamp}
      {next : Fleet} {a : Answer} {answer : Except CallError Unit}
      (member : f.member? node = some p)
      (handled : (f.record node m.phase).deliver node p m now = (next, a))
      (back : answer = a.mapError .rejected ∨ ∃ e, answer = .error e) :
      Serves f (.sent node m (some (now, a)) answer) next
  | lost {f : Fleet} {node : Address} {m : Message} {e : CallError} :
      Serves f (.sent node m none (.error e)) (f.record node m.phase)

/-- A pass over given nodes. -/
inductive Job where
  | change (sender : Sender) (uuid : Uuid) (nodes : List (Address × LogicalState))
      (change : Change)
  | recovery (sender : Sender) (nodes : List Address) (target : ChangeState)

/-- The log is one that the pass of the job may have. -/
def Job.Logs (log : List Event) : Job → Prop
  | .change sender uuid nodes c => ∃ result, (changePass sender uuid nodes c).Logs log result
  | .recovery sender nodes target => ∃ result, (recoveryPass sender nodes target).Logs log result

/-- The calls of one of the coordinators. -/
def logOf {ι : Type} [DecidableEq ι] (i : ι) (trace : List (ι × Event)) : List Event :=
  (trace.filter (·.1 == i)).map (·.2)

theorem logOf_append {ι : Type} [DecidableEq ι] (i : ι) (trace more : List (ι × Event)) :
    logOf i (trace ++ more) = logOf i trace ++ logOf i more := by
  simp [logOf]

theorem logOf_map {ι : Type} [DecidableEq ι] (i j : ι) (log : List Event) :
    logOf i (log.map (j, ·)) = if j = i then log else [] := by
  by_cases same : j = i
  · simp [logOf, List.filter_map, Function.comp_def, same]
  · simp [logOf, List.filter_map, Function.comp_def, same]

theorem logOf_eq_append {ι : Type} [DecidableEq ι] {i : ι} {trace : List (ι × Event)}
    {first second : List Event} (split : logOf i trace = first ++ second) :
    ∃ before after, trace = before ++ after ∧ logOf i before = first ∧
      logOf i after = second := by
  obtain ⟨l, r, filtered, rfl, rfl⟩ := List.map_eq_append_iff.1 split
  obtain ⟨before, after, rfl, rfl, rfl⟩ := List.filter_eq_append_iff.1 filtered
  exact ⟨before, after, rfl, rfl, rfl⟩

/-- The fleet after the calls of the trace, which coordinators with these jobs made
from the given start on. -/
inductive Coordinated {ι : Type} [DecidableEq ι] (jobs : ι → Job) (start : Fleet) :
    List (ι × Event) → Fleet → Prop
  | start : Coordinated jobs start [] start
  | call {trace : List (ι × Event)} {f next : Fleet} {i : ι} {event : Event}
      (earlier : Coordinated jobs start trace f)
      (allowed : (jobs i).Logs (logOf i trace ++ [event])) (served : f.Serves event next) :
      Coordinated jobs start (trace ++ [(i, event)]) next

/-! ## The calls of a pass -/

namespace Pass.Logs

variable {α β : Type}

theorem of_bind {pass : Pass α} {next : α → Pass β} {log : List Event} {result : Option β}
    (logs : (pass >>= next).Logs log result) : (pass.Logs log none ∧ result = none) ∨
      ∃ a first second, pass.Logs first (some a) ∧ (next a).Logs second result ∧
        log = first ++ second := by
  induction pass generalizing log with
  | done a => exact .inr ⟨a, [], log, .done, logs, rfl⟩
  | discover nodes more ih =>
    cases logs with
    | stopped => exact .inl ⟨.stopped, rfl⟩
    | asking round made => exact .inl ⟨.asking round made, rfl⟩
    | asked round rest =>
      obtain ⟨begun, ended⟩ | ⟨a, first, second, begun, logs, rfl⟩ := ih _ rest
      · exact .inl ⟨.asked round begun, ended⟩
      · exact .inr ⟨a, _, second, .asked round begun, logs, (List.append_assoc _ _ _).symm⟩
  | send node message more ih =>
    cases logs with
    | stopped => exact .inl ⟨.stopped, rfl⟩
    | sent rest =>
      obtain ⟨begun, ended⟩ | ⟨a, first, second, begun, logs, rfl⟩ := ih _ rest
      · exact .inl ⟨.sent begun, ended⟩
      · exact .inr ⟨a, _, second, .sent begun, logs, rfl⟩

theorem bind_none {pass : Pass α} {log : List Event} (next : α → Pass β)
    (logs : pass.Logs log none) : (pass >>= next).Logs log none := by
  generalize unfinished : (none : Option α) = result at logs
  induction logs with
  | stopped => exact .stopped
  | done => cases unfinished
  | asking round made => exact .asking round made
  | asked round _ ih => exact .asked round (ih unfinished)
  | sent _ ih => exact .sent (ih unfinished)

/-- A coordinator may stop after any call. -/
theorem of_append {pass : Pass α} {first second : List Event} {result : Option α}
    (logs : pass.Logs (first ++ second) result) : ∃ r, pass.Logs first r := by
  induction pass generalizing first with
  | done a =>
    generalize whole : first ++ second = log at logs
    cases logs with
    | stopped =>
      rw [(List.append_eq_nil_iff.1 whole).1]
      exact ⟨none, .stopped⟩
    | done =>
      rw [(List.append_eq_nil_iff.1 whole).1]
      exact ⟨none, .stopped⟩
  | discover nodes next ih =>
    generalize whole : first ++ second = log at logs
    cases logs with
    | stopped =>
      rw [(List.append_eq_nil_iff.1 whole).1]
      exact ⟨none, .stopped⟩
    | asking round made =>
      exact ⟨none, .asking round ((List.prefix_append _ _).trans (whole ▸ made))⟩
    | @asked _ _ answers asks log _ round rest =>
      rcases List.append_eq_append_iff.1 whole with ⟨more, rfl, rfl⟩ | ⟨more, rfl, rfl⟩
      · exact ⟨none, .asking round (List.prefix_append _ _)⟩
      · obtain ⟨r, logs⟩ := ih answers rest
        exact ⟨r, .asked round logs⟩
  | send node message next ih =>
    generalize whole : first ++ second = log at logs
    cases logs with
    | stopped =>
      rw [(List.append_eq_nil_iff.1 whole).1]
      exact ⟨none, .stopped⟩
    | @sent _ _ _ delivery answer log _ rest =>
      cases first with
      | nil => exact ⟨none, .stopped⟩
      | cons event first =>
        cases whole
        obtain ⟨r, logs⟩ := ih answer rest
        exact ⟨r, .sent logs⟩

end Pass.Logs

theorem Job.Logs.of_append {job : Job} {first second : List Event}
    (logs : job.Logs (first ++ second)) : job.Logs first := by
  cases job with
  | change sender uuid nodes change =>
    obtain ⟨result, logs⟩ := logs
    exact Pass.Logs.of_append logs
  | recovery sender nodes target =>
    obtain ⟨result, logs⟩ := logs
    exact Pass.Logs.of_append logs

/-! ## Passes that run to their end -/

/-- The fleet after the calls of one coordinator that nobody else interrupts. -/
inductive Fleet.ServesAll : Fleet → List Event → Fleet → Prop
  | none {f : Fleet} : ServesAll f [] f
  | call {f next last : Fleet} {event : Event} {log : List Event} (served : f.Serves event next)
      (rest : ServesAll next log last) : ServesAll f (event :: log) last

namespace Fleet

theorem ServesAll.append {f g last : Fleet} {first second : List Event}
    (served : f.ServesAll first g) (rest : g.ServesAll second last) :
    f.ServesAll (first ++ second) last := by
  induction served with
  | none => exact rest
  | call served _ ih => exact .call served (ih rest)

theorem ServesAll.split {f g : Fleet} {first second : List Event}
    (served : f.ServesAll (first ++ second) g) :
    ∃ next, f.ServesAll first next ∧ next.ServesAll second g := by
  induction first generalizing f with
  | nil => exact ⟨f, .none, served⟩
  | cons event rest ih =>
    cases served with
    | call now later =>
      obtain ⟨next, before, after⟩ := ih later
      exact ⟨next, .call now before, after⟩

theorem reach_member {f : Fleet} {node : Address} {phase : Phase} {limit : Option Span}
    {p : Participant} (reached : f.reach node phase limit = .ok p) : f.member? node = some p := by
  unfold reach at reached
  dsimp only at reached
  split at reached
  · split at reached
    · cases reached
      assumption
    · cases reached
  · cases reached
  · split at reached
    · cases reached
    · split at reached
      · cases reached
        assumption
      · cases reached

theorem discover_serves (f : Fleet) (node : Address) (limit : Option Span) :
    f.Serves (.asked node (f.discover node limit).2) (f.discover node limit).1 := by
  unfold discover
  cases reached : f.reach node .discover limit with
  | error e => exact .unanswered
  | ok p =>
    dsimp only
    cases found : p.discover with
    | error e => exact .unanswered
    | ok s => exact .asked (reach_member reached) found

theorem send_serves (f : Fleet) (node : Address) (m : Message) (limit : Option Span)
    (now : Timestamp) : ∃ delivery, (∀ t a, delivery = some (t, a) → t = now) ∧
      f.Serves (.sent node m delivery (f.send node m limit now).2) (f.send node m limit now).1 := by
  unfold send
  cases reached : f.reach node m.phase limit with
  | error e => exact ⟨none, nofun, .lost⟩
  | ok p =>
    refine ⟨some (now, (p.handle m now).2), fun t a same => ?_,
      .delivered (reach_member reached) rfl (.inl rfl)⟩
    cases same
    rfl

theorem discoverAll_serves (limit : Option Span) (nodes : List Address) (f : Fleet) :
    (f.discoverAll limit nodes).2.map (·.1) = nodes ∧
      f.ServesAll ((f.discoverAll limit nodes).2.map fun answer => .asked answer.1 answer.2)
        (f.discoverAll limit nodes).1 := by
  induction nodes generalizing f with
  | nil => exact ⟨rfl, .none⟩
  | cons node rest ih =>
    have ⟨all, served⟩ := ih (f.discover node limit).1
    exact ⟨congrArg (node :: ·) all, .call (discover_serves f node limit) served⟩

end Fleet

/-- A pass that runs to its end makes calls that a coordinator may make. -/
theorem Pass.run_logs {α : Type} (patience : Patience) (clock : Clock) (pass : Pass α)
    (f : Fleet) : ∃ log, pass.Logs log (some (pass.run patience clock f).2) ∧
      f.ServesAll log (pass.run patience clock f).1 ∧
      ∀ event ∈ log, event.At fun t => ∃ n, t = clock n := by
  induction pass generalizing f with
  | done a => exact ⟨[], .done, .none, by simp⟩
  | discover nodes next ih =>
    have ⟨all, asked⟩ := f.discoverAll_serves (some patience.discovery) nodes
    obtain ⟨log, logs, served, timed⟩ := ih (f.discoverAll (some patience.discovery) nodes).2
      (f.discoverAll (some patience.discovery) nodes).1
    refine ⟨_, .asked ⟨all, .refl _⟩ logs, asked.append served, fun event mem => ?_⟩
    rcases List.mem_append.1 mem with mem | mem
    · obtain ⟨answer, -, rfl⟩ := List.mem_map.1 mem
      trivial
    · exact timed event mem
  | send node m next ih =>
    obtain ⟨delivery, now_eq, sent⟩ :=
      f.send_serves node m (some patience.call) (clock f.calls.length)
    obtain ⟨log, logs, served, timed⟩ :=
      ih (f.send node m (some patience.call) (clock f.calls.length)).2
        (f.send node m (some patience.call) (clock f.calls.length)).1
    refine ⟨_, .sent logs, .call sent served, fun event mem => ?_⟩
    rcases List.mem_cons.1 mem with rfl | mem
    · exact fun t a got => ⟨_, now_eq t a got⟩
    · exact timed event mem

theorem Coordinated.calls {ι : Type} [DecidableEq ι] {jobs : ι → Job} {start f g : Fleet}
    {trace : List (ι × Event)} {i : ι} {log : List Event}
    (earlier : Coordinated jobs start trace f) (served : f.ServesAll log g)
    (allowed : (jobs i).Logs (logOf i trace ++ log)) :
    Coordinated jobs start (trace ++ log.map (i, ·)) g := by
  induction served generalizing trace with
  | none => simpa using earlier
  | @call f next last event log served _ ih =>
    have split : logOf i trace ++ event :: log = (logOf i trace ++ [event]) ++ log := by simp
    rw [split] at allowed
    have called := Coordinated.call earlier allowed.of_append served
    have now : logOf i (trace ++ [(i, event)]) = logOf i trace ++ [event] := by simp [logOf]
    simpa using ih called (now ▸ allowed)

end Reconfig
