/-
What calls do to the histories of the nodes.

The fleet is left behind here: a run of coordinators is followed on the histories
that the nodes keep, and every run on a fleet is one of these.
-/
import Mathlib.Logic.Function.Basic
import Mathlib.Logic.Relation
import Reconfig.Proofs.Coordination.Courses
import Reconfig.Proofs.Participant.Answering

namespace Reconfig

/-- The history of each node. -/
abbrev Histories := Address → History

/-- The nodes of the fleet keep these histories. -/
structure Fleet.Records (f : Fleet) (H : Histories) : Prop where
  keeps : ∀ {node p}, f.member? node = some p → p.space.Keeps (H node)
  sound : ∀ {node p}, f.member? node = some p → History.Sound p.processor.limits (H node)

/-- The stores of the nodes do not fail, and their times can be read. -/
structure Fleet.Sturdy (f : Fleet) (H : Histories) : Prop where
  memory : ∀ {node p}, f.member? node = some p → p.store.InMemory
  legible : ∀ {node p}, f.member? node = some p → p.space.Legible (H node)

/-- What a call does to the histories. -/
inductive Evolves (H : Histories) : Event → Histories → Prop
  | asked {node : Address} {s : Snapshot} (shows : s.Shows (H node)) :
      Evolves H (.asked node (.ok s)) H
  | unanswered {node : Address} {e : CallError} : Evolves H (.asked node (.error e)) H
  | taken {node : Address} {m : Message} {now : Timestamp} {answer : Except CallError Unit}
      {limits : Limits} {h : History} (accepts : History.Accepts limits (H node) m now h) :
      Evolves H (.sent node m (some (now, .ok ())) answer) (Function.update H node h)
  | ignored {node : Address} {m : Message} {delivery : Option (Timestamp × Answer)}
      {e : CallError} (refused : ∀ now, delivery ≠ some (now, .ok ())) :
      Evolves H (.sent node m delivery (.error e)) H

/-- The histories after the calls of the trace. -/
inductive Unfolds {ι : Type} [DecidableEq ι] (jobs : ι → Job) (start : Histories) :
    List (ι × Event) → Histories → Prop
  | start : Unfolds jobs start [] start
  | call {trace : List (ι × Event)} {H next : Histories} {i : ι} {event : Event}
      (earlier : Unfolds jobs start trace H)
      (allowed : (jobs i).Logs (logOf i trace ++ [event])) (evolves : Evolves H event next) :
      Unfolds jobs start (trace ++ [(i, event)]) next

/-! ## From fleets to histories -/

namespace Fleet

variable {f next : Fleet} {H : Histories} {event : Event}

@[simp] theorem member?_record (f : Fleet) (node other : Address) (phase : Phase) :
    (f.record node phase).member? other = f.member? other := rfl

theorem member?_deliver (f : Fleet) (node other : Address) (p : Participant) (m : Message)
    (now : Timestamp) : (f.deliver node p m now).1.member? other =
      if other = node then some (p.handle m now).1 else f.member? other := by
  simp only [deliver, member?, Dict.get?_insert]
  by_cases same : other = node
  · rw [if_pos same, if_pos (congrArg Address.text same)]
  · have texts : other.text ≠ node.text := fun texts => same (by cases other; cases node; simp_all)
    rw [if_neg same, if_neg texts]

/-- What holds of every node and its history still does after one node has handled
a message, if it holds of that node. -/
theorem deliver_forall {P : Participant → History → Prop} {node other : Address}
    {p q : Participant} {m : Message} {now : Timestamp} {h : History}
    (all : ∀ {node p}, f.member? node = some p → P p (H node)) (one : P (p.handle m now).1 h)
    (member : (f.deliver node p m now).1.member? other = some q) :
    P q (Function.update H node h other) := by
  rw [member?_deliver] at member
  by_cases same : other = node
  · rw [if_pos same] at member
    cases member
    rw [same, Function.update_self]
    exact one
  · rw [if_neg same] at member
    rw [Function.update_of_ne same]
    exact all member

theorem Serves.evolves (served : f.Serves event next) (records : f.Records H) :
    ∃ H', Evolves H event H' ∧ next.Records H' ∧
      (event.At Timestamp.Legible → f.Sturdy H → next.Sturdy H') := by
  cases served with
  | asked member found =>
    have shows := Participant.shows_of_discover (records.keeps member) (records.sound member) found
    exact ⟨H, .asked shows, ⟨records.keeps, records.sound⟩,
      fun _ sturdy => ⟨sturdy.memory, sturdy.legible⟩⟩
  | unanswered =>
    exact ⟨H, .unanswered, ⟨records.keeps, records.sound⟩,
      fun _ sturdy => ⟨sturdy.memory, sturdy.legible⟩⟩
  | lost =>
    exact ⟨H, .ignored (by simp), ⟨records.keeps, records.sound⟩,
      fun _ sturdy => ⟨sturdy.memory, sturdy.legible⟩⟩
  | @delivered node p m now _ a answer member delivered back =>
    obtain ⟨h, keeps, sound, taken, memory, legible⟩ :=
      (Participant.handled (records.keeps member) (records.sound member) m now).history
        (records.keeps member) (records.sound member)
    have next_eq : next = ((f.record node m.phase).deliver node p m now).1 := by rw [delivered]
    have answer_eq : a = (p.handle m now).2 := (congrArg Prod.snd delivered).symm
    refine ⟨Function.update H node h, ?_, ?_, ?_⟩
    · rcases taken with ⟨accepted, accepts⟩ | ⟨⟨r, refused⟩, same⟩
      · rw [answer_eq, accepted]
        exact .taken accepts
      · rw [same, Function.update_eq_self]
        have error : ∃ e, answer = .error e := by
          rcases back with back | back
          · exact ⟨.rejected r, by rw [back, answer_eq, refused]; rfl⟩
          · exact back
        obtain ⟨e, rfl⟩ := error
        exact .ignored (by simp [answer_eq, refused])
    · rw [next_eq]
      exact ⟨deliver_forall (P := fun p h => p.space.Keeps h) records.keeps keeps,
        deliver_forall (P := fun p h => History.Sound p.processor.limits h) records.sound sound⟩
    · intro readable sturdy
      rw [next_eq]
      exact ⟨deliver_forall (P := fun p _ => p.store.InMemory) (H := H) (h := h) sturdy.memory
          (memory (sturdy.memory member)),
        deliver_forall (P := fun p h => p.space.Legible h) sturdy.legible
          (legible (readable now a rfl) (sturdy.legible member))⟩

end Fleet

/-- Every run on a fleet is one on the histories of its nodes. -/
theorem Coordinated.unfolds {ι : Type} [DecidableEq ι] {jobs : ι → Job} {start f : Fleet}
    {H₀ : Histories} {trace : List (ι × Event)} (records : start.Records H₀)
    (run : Coordinated jobs start trace f) : ∃ H, Unfolds jobs H₀ trace H ∧ f.Records H ∧
      ((∀ call ∈ trace, call.2.At Timestamp.Legible) → start.Sturdy H₀ → f.Sturdy H) := by
  induction run with
  | start => exact ⟨H₀, .start, records, fun _ sturdy => sturdy⟩
  | call _ allowed served ih =>
    obtain ⟨H, unfolds, records, sturdy⟩ := ih
    obtain ⟨H', evolves, records', sturdy'⟩ := served.evolves records
    refine ⟨H', .call unfolds allowed evolves, records', fun readable sturdy₀ => ?_⟩
    have last := readable _ (List.mem_append_right _ List.mem_cons_self)
    exact sturdy' last (sturdy (fun call mem => readable call (List.mem_append_left _ mem)) sturdy₀)

end Reconfig
