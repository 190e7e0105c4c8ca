/-
What the listeners of a node hear.

The listeners are asked in their order before anything else is done, and the first refusal ends the
asking. So those before it have heard of a topology that does not take effect: the node answers
that it could not apply the change, and is what it was. A topology that nobody refuses does take
effect, also where a log then finds the writes too long.
-/
import Reconfig.Proofs.Participant.Effect

namespace Reconfig

/-! ## One question to all listeners -/

namespace Listener

variable {l : Listener} {listeners rest rest' : List Listener} {change change' : Change}
  {result topology : Cluster} {i : Nat}

def Accepts (l : Listener) (change : Change) (result : Cluster) : Prop :=
  l.answer l.asked change result = .ok ()

def agreed (change : Change) (result : Cluster) (l : Listener) : Listener :=
  { l with asked := l.asked + 1, heard := l.heard ++ [(change, result)] }

def objected (l : Listener) : Listener := { l with asked := l.asked + 1 }

theorem ask_of_accepts (accepts : l.Accepts change result) :
    l.ask change result = (l.agreed change result, .ok ()) := by
  rw [ask, accepts]
  rfl

theorem ask_of_error {e : Error} (refuses : l.answer l.asked change result = .error e) :
    l.ask change result = (l.objected, .error e) := by
  rw [ask, refuses]
  rfl

theorem askAll_of_accepts (all : ∀ l ∈ listeners, l.Accepts change result) :
    askAll change result listeners = (listeners.map (agreed change result), .ok ()) := by
  induction listeners with
  | nil => rfl
  | cons first rest ih =>
    obtain ⟨accepts, all⟩ := List.forall_mem_cons.1 all
    rw [askAll, ask_of_accepts accepts, ih all]
    rfl

theorem askAll_of_error {before after : List Listener} {e : Error}
    (accept : ∀ l ∈ before, l.Accepts change result)
    (refuses : l.answer l.asked change result = .error e) :
    askAll change result (before ++ l :: after) =
      (before.map (agreed change result) ++ l.objected :: after, .error e) := by
  induction before with
  | nil =>
    rw [List.nil_append, askAll, ask_of_error refuses]
    rfl
  | cons first rest ih =>
    obtain ⟨accepts, accept⟩ := List.forall_mem_cons.1 accept
    rw [List.cons_append, askAll, ask_of_accepts accepts, ih accept]
    rfl

/-- Unless all agree there is a first one that refuses. -/
theorem accept_or_refuses (change : Change) (result : Cluster) (listeners : List Listener) :
    (∀ l ∈ listeners, l.Accepts change result) ∨ ∃ before l after e,
      listeners = before ++ l :: after ∧ (∀ b ∈ before, b.Accepts change result) ∧
      l.answer l.asked change result = .error e := by
  induction listeners with
  | nil => exact .inl nofun
  | cons first rest ih =>
    cases reply : first.answer first.asked change result with
    | error e => exact .inr ⟨[], first, rest, e, rfl, nofun, reply⟩
    | ok =>
      rcases ih with all | ⟨before, l, after, e, rfl, accept, refuses⟩
      · exact .inl (List.forall_mem_cons.2 ⟨reply, all⟩)
      · exact .inr ⟨first :: before, l, after, e, rfl, List.forall_mem_cons.2 ⟨reply, accept⟩,
          refuses⟩

/-- The listener at the position has agreed to the topology since. -/
def Hears (before after : List Listener) (i : Nat) (change : Change) (topology : Cluster) : Prop :=
  ∃ l l', before[i]? = some l ∧ after[i]? = some l' ∧
    (change, topology) ∈ l'.heard.drop l.heard.length

theorem not_hears_self (listeners : List Listener) :
    ¬ Hears listeners listeners i change topology := by
  rintro ⟨l, l', there, there', mem⟩
  obtain rfl : l = l' := Option.some.inj (there.symm.trans there')
  simp at mem

theorem not_hears_objected : ¬ Hears (l :: rest) (l.objected :: rest) i change topology := by
  cases i with
  | zero =>
    rintro ⟨l, l', there, there', mem⟩
    cases there
    cases there'
    simp [objected] at mem
  | succ i => exact not_hears_self rest (i := i)

theorem hears_agreed_iff (before : List Listener)
    (silent : ∀ j, ¬ Hears rest rest' j change' topology) :
    Hears (before ++ rest) (before.map (agreed change result) ++ rest') i change' topology ↔
      i < before.length ∧ change' = change ∧ topology = result := by
  rcases Nat.lt_or_ge i before.length with inside | outside
  · have there : (before ++ rest)[i]? = some before[i] := by
      rw [List.getElem?_append_left inside, List.getElem?_eq_getElem inside]
    have there' : (before.map (agreed change result) ++ rest')[i]? =
        some (before[i].agreed change result) := by
      rw [List.getElem?_append_left (by simpa using inside), List.getElem?_map,
        List.getElem?_eq_getElem inside]
      rfl
    rw [Hears, there, there']
    simp [agreed, inside]
  · rw [← Nat.add_sub_of_le outside]
    have later : Hears (before ++ rest) (before.map (agreed change result) ++ rest')
        (before.length + (i - before.length)) change' topology ↔
        Hears rest rest' (i - before.length) change' topology := by
      simp only [Hears]
      rw [List.getElem?_append_right (Nat.le_add_right _ _),
        List.getElem?_append_right (by simp), List.length_map, Nat.add_sub_cancel_left]
    rw [later]
    exact iff_of_false (silent _) fun ⟨inside, _⟩ => absurd inside (by omega)

end Listener

/-! ## A topology that is to take effect -/

namespace Processor

variable {processor : Processor} {change : Change} {result : Cluster}

theorem apply_of_accepts (unlike : processor.runtime ≠ some result)
    (all : ∀ l ∈ processor.listeners, l.Accepts change result) :
    processor.apply change result = (⟨processor.limits, some result,
      processor.listeners.map (.agreed change result)⟩, .ok ()) := by
  rw [apply, if_neg unlike, Listener.askAll_of_accepts all]

theorem apply_of_error (unlike : processor.runtime ≠ some result) {before after : List Listener}
    {l : Listener} {e : Error} (shape : processor.listeners = before ++ l :: after)
    (accept : ∀ b ∈ before, b.Accepts change result)
    (refuses : l.answer l.asked change result = .error e) : processor.apply change result =
      (⟨processor.limits, processor.runtime,
        before.map (.agreed change result) ++ l.objected :: after⟩, .error e) := by
  rw [apply, if_neg unlike, shape, Listener.askAll_of_error accept refuses]

end Processor

namespace Participant

variable {p q next : Participant} {log : Exchanges} {h : History} {limits : Limits}
  {accepted : List Prepare} {m : Message} {now : Timestamp} {change : Change} {topology : Cluster}
  {i : Nat}

def Hears (p next : Participant) (i : Nat) (change : Change) (topology : Cluster) : Prop :=
  Listener.Hears p.processor.listeners next.processor.listeners i change topology

/-- Who closes a request that has no effect on the node asks no listener. -/
theorem Settled.processor_of_unasked (settled : Settled limits accepted p h) {state : NodeState}
    {d : ChangeDetails} {context : Context} {closing : Closing} (mem : d ∈ h)
    (read : p.state = .ok state)
    (attempted : p.attempt state m now = p.close state context d.uuid closing now)
    (effect : p.takeEffect d closing = (p, .ok ())) :
    (p.handle m now).1.processor = p.processor := by
  have closed :=
    close_eq settled.keeps mem (settled.request?_of_mem mem) state context closing now
  rw [effect] at closed
  dsimp only at closed
  split at closed
  · rw [handle_of_attempt read (attempted.trans closed)]
  · rw [handle_of_attempt read (attempted.trans closed)]

/-- Somebody is only asked when the request in flight is to be committed, and its result is not in
effect. -/
theorem Settled.close_of_hears (settled : Settled limits accepted p h)
    (hears : p.Hears (p.handle m now).1 i change topology) :
    ∃ state d below context closing, p.state = .ok state ∧ h = d :: below ∧ d.state = .prepared ∧
      m.closes? = some (context, d.uuid, closing) ∧ closing.target = .committed ∧
      state.count = context.expected ∧ p.runtimeTopology ≠ some d.result ∧
      p.attempt state m now = p.close state context d.uuid closing now := by
  obtain ⟨keeps, sound, rfl, -⟩ := id settled
  obtain ⟨state, read, tells⟩ := settled.state_eq_ok
  have heard (same : (p.handle m now).1.processor = p.processor) : False := by
    rw [Hears, same] at hears
    exact Listener.not_hears_self _ hears
  rcases attempt_cases keeps sound tells m now with
    ⟨refusal, attempted⟩ | ⟨m, rfl⟩ | ⟨d, below, context, closing, rfl, inFlight, closes,
      terminal, fence, attempted⟩
  · rw [handle_of_attempt read attempted] at heard
    exact (heard rfl).elim
  · exact (heard (p.processor_prepare m now)).elim
  · have unasked (effect : p.takeEffect d closing = (p, .ok ())) : False :=
      heard (settled.processor_of_unasked List.mem_cons_self read attempted effect)
    refine ⟨state, d, below, context, closing, read, rfl, inFlight, closes, ?_, fence, ?_,
      attempted⟩
    · by_contra other
      exact unasked (if_neg other)
    · intro same
      refine unasked ?_
      unfold takeEffect
      split
      · rw [Processor.apply, if_pos (show p.processor.runtime = some d.result from same)]
      · rfl

/-- All have heard of the topology, and nobody has heard of anything else. -/
theorem hears_of_agreed {result : Cluster} {change' : Change}
    (all : next.processor.listeners = p.processor.listeners.map (.agreed change result)) :
    p.Hears next i change' topology ↔
      i < p.processor.listeners.length ∧ change' = change ∧ topology = result := by
  rw [Hears, all, ← List.append_nil p.processor.listeners, List.map_append]
  exact (Listener.hears_agreed_iff _ fun j => Listener.not_hears_self []).trans (by simp)

/-- Only those before the listener that refuses have heard. -/
theorem hears_of_objected {result : Cluster} {change' : Change} {before after : List Listener}
    {l : Listener} (shape : p.processor.listeners = before ++ l :: after)
    (some : next.processor.listeners = before.map (.agreed change result) ++ l.objected :: after) :
    p.Hears next i change' topology ↔
      i < before.length ∧ change' = change ∧ topology = result := by
  rw [Hears, shape, some]
  exact Listener.hears_agreed_iff before fun j => Listener.not_hears_objected

/-- What becomes of the result of a change once the listener at the position has heard of it. -/
inductive Hearing (p : Participant) (m : Message) (now : Timestamp) (d : ChangeDetails) (i : Nat)
    (next : Participant) : Answer → Prop
  | effective (runtime : next.runtimeTopology = some d.result)
    (heard : ∀ k, p.Hears next k d.change d.result ↔ k < p.processor.listeners.length) :
    Hearing p m now d i next (.ok ())
  /-- A listener that was asked later has refused it. -/
  | refused {r : Rejection} {j : Nat} {l : Listener} {e : Error} (reason : r.reason = .applyFailed)
    (store : next.store = p.store) (runtime : next.runtimeTopology = p.runtimeTopology)
    (later : i < j) (there : p.processor.listeners[j]? = some l)
    (refuses : l.answer l.asked d.change d.result = .error e)
    (heard : ∀ k, p.Hears next k d.change d.result ↔ k < j) : Hearing p m now d i next (.error r)
  /-- It is in effect although it could not be written. -/
  | unwritten {r : Rejection} {frames : ChangeLog} (reason : r.reason = .storage)
    (store : next.store = p.store) (log : p.store = .log frames) (overflows : p.Overflows m now d)
    (runtime : next.runtimeTopology = some d.result)
    (heard : ∀ k, p.Hears next k d.change d.result ↔ k < p.processor.listeners.length) :
    Hearing p m now d i next (.error r)

theorem Settled.hearing (settled : Settled limits accepted p h) {answer : Answer}
    (handled : p.handle m now = (next, answer)) (hears : p.Hears next i change topology) :
    ∃ d context closing, m.closes? = some (context, d.uuid, closing) ∧
      closing.target = .committed ∧ p.space.request? d.uuid = .ok (some d) ∧ d.state = .prepared ∧
      d.change = change ∧ d.result = topology ∧ p.runtimeTopology ≠ some topology ∧
      p.Hearing m now d i next answer := by
  have heard : p.Hears (p.handle m now).1 i change topology := by rwa [handled]
  obtain ⟨state, d, below, context, closing, read, rfl, inFlight, closes, committed, fence, unlike,
    attempted⟩ := settled.close_of_hears heard
  have asked := settled.request?_of_mem List.mem_cons_self
  rw [close_eq settled.keeps List.mem_cons_self asked, takeEffect, if_pos committed] at attempted
  suffices found : d.change = change ∧ d.result = topology ∧ p.Hearing m now d i next answer by
    obtain ⟨rfl, rfl, hearing⟩ := found
    exact ⟨d, context, closing, closes, committed, asked, inFlight, rfl, rfl, unlike, hearing⟩
  rcases Listener.accept_or_refuses d.change d.result p.processor.listeners with
    all | ⟨before, l, after, e, shape, accept, refuses⟩
  · have applied := Processor.apply_of_accepts unlike all
    rw [applied] at attempted
    dsimp only at attempted
    split at attempted
    · rw [handle_of_attempt read attempted] at handled
      cases handled
      obtain ⟨inside, rfl, rfl⟩ := (hears_of_agreed rfl).1 hears
      exact ⟨rfl, rfl, .effective rfl fun k => (hears_of_agreed rfl).trans (by simp)⟩
    · rename_i rejected
      obtain ⟨frames, log, -, large, rfl⟩ := Store.commit_eq_error.1 rejected
      rw [handle_of_attempt read attempted] at handled
      cases handled
      obtain ⟨inside, rfl, rfl⟩ := (hears_of_agreed rfl).1 hears
      refine ⟨rfl, rfl, .unwritten rfl rfl log ?_ rfl
        fun k => (hears_of_agreed rfl).trans (by simp)⟩
      exact ⟨asked, inFlight, unlike, by rw [applied], state, context, closing, frames, read,
        closes, committed, fence, log, large⟩
  · rw [Processor.apply_of_error unlike shape accept refuses] at attempted
    rw [handle_of_attempt read attempted] at handled
    cases handled
    obtain ⟨inside, rfl, rfl⟩ := (hears_of_objected shape rfl).1 hears
    refine ⟨rfl, rfl, .refused rfl rfl rfl inside (l := l) ?_ refuses
      fun k => (hears_of_objected shape rfl).trans (by simp)⟩
    rw [shape]
    simp

theorem Overflows.of_unlimited {d : ChangeDetails} (overflows : p.unlimited.Overflows m now d) :
    p.Overflows m now d := by
  obtain ⟨asked, inFlight, unlike, agreed, writes⟩ := overflows
  refine ⟨asked, inFlight, unlike, ?_, writes⟩
  have same : p.unlimited.processor = p.processor.unlimited := rfl
  rwa [same, Processor.apply_unlimited] at agreed

theorem Hearing.of_unlimited {d : ChangeDetails} {answer : Answer}
    (hearing : p.unlimited.Hearing m now d i next.unlimited answer) :
    p.Hearing m now d i next answer := by
  cases hearing with
  | effective runtime heard => exact .effective runtime heard
  | refused reason store runtime later there refuses heard =>
    exact .refused reason store runtime later there refuses heard
  | unwritten reason store log overflows runtime heard =>
    exact .unwritten reason store log overflows.of_unlimited runtime heard

/-- When a listener of a node hears of a topology, the node is to commit the change in flight, and
the topology is its result. All the listeners hear of it and it takes effect, unless one that comes
later refuses it. Then it does not take effect, nothing is written, and nobody else hears of it. But
what takes effect need not be written: a log may refuse it. -/
theorem LivesOn.hears_result (new : p.IsNew) (lives : p.LivesOn log q) {answer : Answer}
    (handled : q.handle m now = (next, answer)) (hears : q.Hears next i change topology) :
    ∃ d context closing, m.closes? = some (context, d.uuid, closing) ∧
      closing.target = .committed ∧ q.space.request? d.uuid = .ok (some d) ∧ d.state = .prepared ∧
      d.change = change ∧ d.result = topology ∧ q.runtimeTopology ≠ some topology ∧
      q.Hearing m now d i next answer := by
  obtain ⟨h, continues⟩ := lives.continues new.settled
  rcases q.handle_unlimited m now with same | ⟨unchanged, -⟩
  · rw [handled] at same
    obtain ⟨d, context, closing, closes, committed, asked, inFlight, taken, made, unlike,
      hearing⟩ := continues.settled.hearing same hears
    exact ⟨d, context, closing, closes, committed, asked, inFlight, taken, made, unlike,
      hearing.of_unlimited⟩
  · rw [handled] at unchanged
    exact absurd (unchanged ▸ hears) (Listener.not_hears_self _)

/-! ## A founding that one of two listeners refuses -/

/-- A node that is to commit what a listener refuses has asked no further. -/
theorem Settled.handle_of_refuses {d : ChangeDetails} {below : History} {context : Context}
    {closing : Closing} (settled : Settled limits accepted p (d :: below))
    (inFlight : d.state = .prepared) (closes : m.closes? = some (context, d.uuid, closing))
    (committed : closing.target = .committed)
    (fence : History.messages (d :: below) = context.expected)
    (unlike : p.runtimeTopology ≠ some d.result) {before after : List Listener} {l : Listener}
    {e : Error} (shape : p.processor.listeners = before ++ l :: after)
    (accept : ∀ b ∈ before, b.Accepts d.change d.result)
    (refuses : l.answer l.asked d.change d.result = .error e) (now : Timestamp) :
    ∃ next r, p.handle m now = (next, .error r) ∧ r.reason = .applyFailed ∧
      next.processor.listeners = before.map (.agreed d.change d.result) ++ l.objected :: after := by
  obtain ⟨state, read, tells⟩ := settled.state_eq_ok
  have asked := settled.request?_of_mem List.mem_cons_self
  have terminal : closing.target ≠ .prepared := by
    rw [committed]
    decide
  have attempted := attempt_eq_close tells inFlight asked inFlight closes terminal
    (tells.count.trans fence) now
  rw [close_eq settled.keeps List.mem_cons_self asked, takeEffect, if_pos committed,
    Processor.apply_of_error unlike shape accept refuses] at attempted
  exact ⟨_, _, handle_of_attempt read attempted, rfl, rfl⟩

/-- A new node with a listener that agrees to everything and one behind it that never agrees. -/
def divided : Participant :=
  ⟨"n", .memory (NodeState.initialWrites.applyTo ∅),
    .new ⟨none⟩ [⟨fun _ _ _ => .ok (), 0, []⟩, ⟨fun _ _ _ => .error (.internal "busy"), 0, []⟩]⟩

theorem start_divided : start "n" .empty divided.processor = .ok divided := rfl

/-- The first listener hears of a founding that the second one refuses. -/
theorem divided_hears_founding : ∃ q next refusal, divided.IsNew ∧
    divided.LivesOn [(.prepare foundingPrepare, .ok ())] q ∧ q.store.InMemory ∧
    q.handle (.commit foundingCommit) noon = (next, .error refusal) ∧
    refusal.reason = .applyFailed ∧ q.Hears next 0 founding foundedCluster ∧
    next.runtimeTopology = none ∧ next.store = q.store := by
  let d := History.request [] foundingPrepare foundedCluster noon
  have new : divided.IsNew := ⟨_, _, _, .memory, start_divided⟩
  have storable : noon.Storable := by decide
  have lives := (LivesOn.here (p := divided)).handled (.prepare foundingPrepare) storable
  have prepared : (divided.handle (.prepare foundingPrepare) noon).2 = .ok () := rfl
  have founds : History.Accepts ⟨none⟩ [] (.prepare foundingPrepare) noon [d] :=
    .prepare rfl rfl rfl (by simp) (Change.validate_eq_ok.2 ⟨rfl, rfl, rfl⟩)
  have settled : Settled ⟨none⟩ [] divided [] := .of_start .memory start_divided
  have inEffect : divided.InEffect [] := ⟨⟨_, rfl⟩, rfl⟩
  have inEffect := inEffect.handle settled (.inl ⟨prepared, founds⟩)
  obtain ⟨h, settled, ⟨-, accepts⟩ | ⟨⟨r, refused⟩, -⟩⟩ :=
    settled.handle (.prepare foundingPrepare) storable
  · obtain rfl := founds.unique accepts
    have processor := divided.processor_prepare foundingPrepare noon
    rw [prepared] at lives
    generalize (divided.handle (.prepare foundingPrepare) noon).1 = q at *
    have nothing : q.runtimeTopology = none := inEffect.runtime
    have unlike : q.runtimeTopology ≠ some d.result := by
      rw [nothing]
      exact nofun
    have closes : (Message.commit foundingCommit).closes? =
        some (foundingCommit.context, d.uuid, .commit) := rfl
    have shape : q.processor.listeners = [⟨fun _ _ _ => .ok (), 0, []⟩] ++
        [⟨fun _ _ _ => .error (.internal "busy"), 0, []⟩] := congrArg (·.listeners) processor
    obtain ⟨next, refusal, handled, reason, asked⟩ := settled.handle_of_refuses rfl closes rfl rfl
      unlike shape (by simp [Listener.Accepts]) rfl noon
    have hears : q.Hears next 0 d.change d.result := by
      rw [Hears, asked, processor]
      exact (Listener.hears_agreed_iff [_] fun j => Listener.not_hears_objected).2
        ⟨Nat.zero_lt_one, rfl, rfl⟩
    obtain ⟨d', context, closing, -, -, -, -, -, -, -, hearing⟩ :=
      lives.hears_result new handled hears
    cases hearing with
    | refused _ store runtime =>
      exact ⟨q, next, refusal, new, lives, inEffect.memory, handled, reason, hears,
        runtime.trans nothing, store⟩
    | unwritten _ _ log overflows => exact absurd inEffect.memory overflows.not_inMemory
  · rw [prepared] at refused
    cases refused

end Participant
end Reconfig
