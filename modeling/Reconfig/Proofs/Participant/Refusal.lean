/-
What a refused message leaves behind.

A refused message leaves the store as it was, so the node shows the same state and the same
committed and upcoming topology. The topology in effect stays too, but for one case: the
result of a commit takes effect before the log is written, and it is not taken back where
the log finds the change-set too long.
-/
import Reconfig.Proofs.Participant.Restart

namespace Reconfig

/-! ## How long a change-set is at least -/

namespace Json

theorem length_lt_str (s : String) : s.toList.length < (Json.str s).chars.length := by
  have escaped : s.toList.length ≤ (s.toList.flatMap escapeChar).length := by
    induction s.toList with
    | nil => exact Nat.le_refl _
    | cons c rest ih =>
      have : 0 < (escapeChar c).length := by
        unfold escapeChar
        repeat' split
        all_goals simp
      rw [List.flatMap_cons, List.length_append, List.length_cons]
      omega
  rw [chars, quote, List.length_append, List.length_cons]
  omega

theorem length_lt_itemsTail {item : Json} {items : List Json} (mem : item ∈ items) :
    item.chars.length < (itemsTail items).length := by
  induction items with
  | nil => cases mem
  | cons first rest ih =>
    rw [itemsTail, List.length_cons, List.length_append]
    rcases List.mem_cons.1 mem with rfl | mem
    · omega
    · have := ih mem
      omega

theorem length_lt_membersTail {name : String} {value : Json} {members : List (String × Json)}
    (mem : (name, value) ∈ members) : value.chars.length < (membersTail members).length := by
  induction members with
  | nil => cases mem
  | cons first rest ih =>
    rw [membersTail, List.length_cons, List.length_append, List.length_cons, List.length_append]
    rcases List.mem_cons.1 mem with rfl | mem
    · dsimp only
      omega
    · have := ih mem
      omega

/-- A list is longer than each of its items. -/
theorem length_lt_arr {item : Json} {items : List Json} (mem : item ∈ items) :
    item.chars.length < (Json.arr items).chars.length := by
  have longer := length_lt_itemsTail mem
  cases items with
  | nil => cases mem
  | cons first rest => exact longer

/-- An object is longer than each of its values. -/
theorem length_lt_obj {name : String} {value : Json} {members : List (String × Json)}
    (mem : (name, value) ∈ members) : value.chars.length < (Json.obj members).chars.length := by
  have longer := length_lt_membersTail mem
  cases members with
  | nil => cases mem
  | cons first rest => exact longer

end Json

/-- A change-set is longer than each text that it writes. -/
theorem ChangeSet.length_text_lt {c : ChangeSet} {key s : String}
    (mem : ⟨key, .text s⟩ ∈ c.writes) : s.toList.length < c.toJson.bytes.length := by
  have value : (Json.str s).chars.length < (Value.text s).toJson.chars.length :=
    Json.length_lt_obj (show ("value", Json.str s) ∈ _ by simp)
  have write : (Value.text s).toJson.chars.length < (writeJson ⟨key, .text s⟩).chars.length :=
    Json.length_lt_obj (show ("value", (Value.text s).toJson) ∈ _ by simp)
  have item : _ < (Json.arr (c.writes.map writeJson)).chars.length :=
    Json.length_lt_arr (List.mem_map_of_mem mem)
  have whole : _ < c.toJson.chars.length := Json.length_lt_obj List.mem_cons_self
  have text := Json.length_lt_str s
  have bytes := c.toJson.length_chars_le
  omega

/-! ## The topology in effect -/

namespace Processor

variable {processor next : Processor} {change : Change} {result : Cluster}

theorem runtime_of_apply (applied : processor.apply change result = (next, .ok ())) :
    next.runtime = some result := by
  unfold apply at applied
  split at applied
  · rename_i same
    cases applied
    exact same
  · split at applied
    · cases applied
      rfl
    · cases applied

theorem runtime_of_refused {e : Error}
    (refused : processor.apply change result = (next, .error e)) :
    next.runtime = processor.runtime := by
  unfold apply at refused
  split at refused
  · cases refused
  · split at refused
    · cases refused
    · cases refused
      rfl

end Processor

namespace Participant

variable {p next : Participant} {h : History} {d : ChangeDetails} {state : NodeState}
  {context : Context} {closing : Closing} {now : Timestamp}

/-- What is in effect once nobody has refused the closing of a request. -/
theorem runtime_of_takeEffect (effect : p.takeEffect d closing = (next, .ok ())) :
    next.runtimeTopology =
        (if closing.target = .committed then some d.result else p.runtimeTopology) ∧
      (closing.target = .committed → (p.processor.apply d.change d.result).2 = .ok ()) := by
  unfold takeEffect at effect
  split at effect
  · rename_i committed
    obtain ⟨rfl, agreed⟩ := Prod.mk.inj effect
    rw [if_pos committed]
    exact ⟨Processor.runtime_of_apply (Prod.ext rfl agreed), fun _ => agreed⟩
  · rename_i other
    cases effect
    rw [if_neg other]
    exact ⟨rfl, fun committed => absurd committed other⟩

theorem runtime_of_objection {e : Error} (effect : p.takeEffect d closing = (next, .error e)) :
    next.runtimeTopology = p.runtimeTopology := by
  unfold takeEffect at effect
  split at effect
  · obtain ⟨rfl, refused⟩ := Prod.mk.inj effect
    exact Processor.runtime_of_refused (Prod.ext rfl refused)
  · cases effect

theorem handle_of_attempt {m : Message} {outcome : Except Refusal Unit}
    (read : p.state = .ok state) (attempted : p.attempt state m now = (next, outcome)) :
    p.handle m now = (next, outcome.mapError (p.rejection state m.phase)) := by
  simp only [handle, read, attempted]

/-- The queries depend on the store only. -/
theorem queries_of_store (same : next.store = p.store) : next.discover = p.discover ∧
    next.committedTopology = p.committedTopology ∧ next.upcomingTopology = p.upcomingTopology := by
  have space : next.space = p.space := by rw [Participant.space, Participant.space, same]
  simp only [discover, committedTopology, upcomingTopology, Participant.state, space,
    and_self]

end Participant

/-! ## What the store refuses -/

/-- Only a log refuses writes, and only those that are too long for a frame. -/
theorem Store.commit_eq_error {s : Store} {c : ChangeSet} {e : Error} :
    s.commit c = .error e ↔ ∃ frames, s = .log frames ∧ c.isEmpty = false ∧
      Frame.payloadLimit < c.toJson.bytes.length ∧
      (ChangeLog.Fault.oversized c.toJson.bytes.length).toError = e := by
  cases s with
  | memory space => simp [commit]
  | log frames =>
    rw [commit, ChangeLog.commit]
    by_cases empty : c.isEmpty = true
    · simp [empty]
    · rw [if_neg empty]
      rw [Bool.not_eq_true] at empty
      by_cases large : Frame.payloadLimit < c.toJson.bytes.length
      · simp [empty, large]
      · simp [large]

namespace Participant

variable {p next : Participant} {h : History} {d : ChangeDetails} {state : NodeState}
  {context : Context} {closing : Closing} {now : Timestamp}

theorem isEmpty_closeWrites (state : NodeState) (context : Context) (uuid : Uuid)
    (record : Record) (version : Nat) (closing : Closing) (now : Timestamp) :
    (closeWrites state context uuid record version closing now).isEmpty = false := by
  simp [closeWrites, provenance, ChangeSet.put, ChangeSet.isEmpty]

/-- The message commits the request in flight, nobody objects to the result, which is not in
effect yet, and the writes are too long for a frame of the log. -/
structure Overflows (p : Participant) (m : Message) (now : Timestamp) (d : ChangeDetails) :
    Prop where
  asked : p.space.request? d.uuid = .ok (some d)
  inFlight : d.state = .prepared
  unlike : p.runtimeTopology ≠ some d.result
  agreed : (p.processor.apply d.change d.result).2 = .ok ()
  writes : ∃ state context closing frames, p.state = .ok state ∧
    m.closes? = some (context, d.uuid, closing) ∧ closing.target = .committed ∧
    state.count = context.expected ∧ p.store = .log frames ∧ Frame.payloadLimit <
      (closeWrites state context d.uuid d.toRecord d.version closing now).toJson.bytes.length

theorem Overflows.not_inMemory {m : Message} (overflows : p.Overflows m now d) :
    ¬ p.store.InMemory := by
  rintro ⟨space, memory⟩
  obtain ⟨_, _, _, _, -, -, -, -, log, -⟩ := overflows.writes
  rw [memory] at log
  cases log

/-- A sender whose name fills a frame overflows the log. -/
theorem Settled.overflows_of_host {limits : Limits} {accepted : List Prepare}
    {below : History} {m : Message} {frames : ChangeLog}
    (settled : Settled limits accepted p (d :: below)) (inFlight : d.state = .prepared)
    (unlike : p.runtimeTopology ≠ some d.result)
    (agreed : (p.processor.apply d.change d.result).2 = .ok ())
    (closes : m.closes? = some (context, d.uuid, closing)) (committed : closing.target = .committed)
    (fence : History.messages (d :: below) = context.expected) (log : p.store = .log frames)
    (long : Frame.payloadLimit ≤ context.host.toList.length) (now : Timestamp) :
    p.Overflows m now d := by
  obtain ⟨state, read, tells⟩ := settled.state_eq_ok
  have asked := settled.request?_of_mem List.mem_cons_self
  have written : ⟨Key.lastHost, .text context.host⟩ ∈
      (closeWrites state context d.uuid d.toRecord d.version closing now).writes := by
    simp [closeWrites, provenance, ChangeSet.put]
  exact ⟨asked, inFlight, unlike, agreed, state, context, closing, frames, read, closes, committed,
    tells.count.trans fence, log, Nat.lt_of_le_of_lt long (ChangeSet.length_text_lt written)⟩

/-- What a node refuses to close stays as it was, in effect too, unless the node commits it
and only the log refuses. -/
theorem runtime_of_close_refused (keeps : p.space.Keeps h) (mem : d ∈ h)
    (asked : p.space.request? d.uuid = .ok (some d)) {refusal : Refusal}
    (refused : p.close state context d.uuid closing now = (next, .error refusal)) :
    next.runtimeTopology = p.runtimeTopology ∨
      closing.target = .committed ∧ next.runtimeTopology = some d.result ∧
      (p.processor.apply d.change d.result).2 = .ok () ∧ ∃ frames, p.store = .log frames ∧
        Frame.payloadLimit < (closeWrites state context d.uuid d.toRecord d.version closing
          now).toJson.bytes.length := by
  rw [close_eq keeps mem asked] at refused
  split at refused
  · rename_i effect
    cases refused
    exact .inl (runtime_of_objection effect)
  · rename_i q effect
    obtain ⟨runtime, agreed⟩ := runtime_of_takeEffect effect
    split at refused
    · cases refused
    · rename_i rejected
      cases refused
      rw [(takeEffect_keeps effect).1] at rejected
      obtain ⟨frames, log, -, large, -⟩ := Store.commit_eq_error.1 rejected
      by_cases committed : closing.target = .committed
      · rw [if_pos committed] at runtime
        exact .inr ⟨committed, runtime, agreed committed, frames, log, large⟩
      · rw [if_neg committed] at runtime
        exact .inl runtime

/-- The result is in effect although the log refused the commit. -/
theorem Overflows.handle_eq {limits : Limits} {accepted : List Prepare} {m : Message}
    (settled : Settled limits accepted p h) (overflows : p.Overflows m now d) :
    ∃ q r, p.handle m now = (q, .error r) ∧ r.reason = .storage ∧
      q.runtimeTopology = some d.result := by
  obtain ⟨asked, inFlight, -, agreed, state, context, closing, frames, read, closes, committed,
    fence, log, large⟩ := overflows
  have tells := tells_of_state settled.keeps read
  obtain ⟨mem, -⟩ := settled.request?_eq_some.1 asked
  obtain ⟨below, rfl⟩ := settled.sound.eq_cons_of_prepared mem inFlight
  have terminal : closing.target ≠ .prepared := by
    rw [committed]
    decide
  have attempted := attempt_eq_close tells inFlight asked inFlight closes terminal fence now
  have effect : p.takeEffect d closing =
      ({ p with processor := (p.processor.apply d.change d.result).1 }, .ok ()) := by
    rw [takeEffect, if_pos committed]
    exact Prod.ext rfl agreed
  have rejected := Store.commit_eq_error.2
    ⟨frames, log, isEmpty_closeWrites state context d.uuid d.toRecord d.version closing now, large,
      rfl⟩
  simp only [close_eq settled.keeps mem asked, effect, rejected] at attempted
  exact ⟨_, _, handle_of_attempt read attempted, rfl,
    (runtime_of_takeEffect effect).1.trans (if_pos committed)⟩

namespace Settled

variable {limits : Limits} {accepted : List Prepare} {m : Message} {below : History}

/-- What was in effect stays in effect when a message is refused that does not overflow the
log. -/
theorem runtime_of_refused (settled : Settled limits accepted p h) {r : Rejection}
    (refused : p.handle m now = (next, .error r)) (fits : ∀ d, ¬ p.Overflows m now d) :
    next.runtimeTopology = p.runtimeTopology := by
  obtain ⟨keeps, sound, rfl, -⟩ := id settled
  obtain ⟨state, read, tells⟩ := settled.state_eq_ok
  rcases attempt_cases keeps sound tells m now with
    ⟨refusal, attempted⟩ | ⟨m, rfl⟩ | ⟨d, below, context, closing, rfl, inFlight, closes,
      terminal, fence, attempted⟩
  · rw [handle_of_attempt read attempted] at refused
    cases refused
    rfl
  · have processor := p.processor_prepare m now
    rw [refused] at processor
    rw [runtimeTopology, processor, runtimeTopology]
  · have asked := settled.request?_of_mem List.mem_cons_self
    cases closed : p.close state context d.uuid closing now with
    | mk q outcome =>
      rw [closed] at attempted
      rw [handle_of_attempt read attempted] at refused
      cases outcome with
      | ok => cases refused
      | error refusal =>
        cases refused
        rcases runtime_of_close_refused keeps List.mem_cons_self asked closed with
          same | ⟨target, runtime, agreed, frames, log, large⟩
        · exact same
        · by_contra other
          have unlike : p.runtimeTopology ≠ some d.result := fun same =>
            other (runtime.trans same.symm)
          exact fits d ⟨asked, inFlight, unlike, agreed, state, context, closing, frames, read,
            closes, target, fence, log, large⟩

/-- Once the request in flight is closed its result is in effect, if it was committed. -/
theorem runtime_of_closed (settled : Settled limits accepted p (d :: below))
    (inFlight : d.state = .prepared) (closes : m.closes? = some (context, d.uuid, closing))
    (terminal : closing.target ≠ .prepared)
    (fence : History.messages (d :: below) = context.expected)
    (done : p.handle m now = (next, .ok ())) : next.runtimeTopology =
      if closing.target = .committed then some d.result else p.runtimeTopology := by
  obtain ⟨state, read, tells⟩ := settled.state_eq_ok
  have asked := settled.request?_of_mem List.mem_cons_self
  have attempted := attempt_eq_close tells inFlight asked inFlight closes terminal
    (tells.count.trans fence) now
  rw [close_eq settled.keeps List.mem_cons_self asked] at attempted
  cases effect : p.takeEffect d closing with
  | mk q outcome =>
  cases outcome with
  | error e =>
    simp only [effect] at attempted
    rw [handle_of_attempt read attempted] at done
    cases done
  | ok =>
    have runtime := (runtime_of_takeEffect effect).1
    simp only [effect] at attempted
    split at attempted
    · rw [handle_of_attempt read attempted] at done
      cases done
      exact runtime
    · rw [handle_of_attempt read attempted] at done
      cases done

end Settled

/-- A message that is refused leaves the store and all that is read from it as they were, and
the topology in effect unless the message overflows the log. A message that overflows the
log is refused, and yet the result of the request in flight is in effect afterwards. -/
theorem Lived.refused_changes_nothing {limits : Limits} {accepted : List Prepare}
    {p : Participant} (lived : Lived limits accepted p) (m : Message) (now : Timestamp) :
    (∀ q r, p.handle m now = (q, .error r) →
      q.store = p.store ∧ q.discover = p.discover ∧
        q.committedTopology = p.committedTopology ∧ q.upcomingTopology = p.upcomingTopology ∧
        ((∀ d, ¬ p.Overflows m now d) → q.runtimeTopology = p.runtimeTopology)) ∧
    ∀ d, p.Overflows m now d → ∃ q r, p.handle m now = (q, .error r) ∧ r.reason = .storage ∧
      p.runtimeTopology ≠ some d.result ∧ q.runtimeTopology = some d.result := by
  obtain ⟨h, settled⟩ := lived.settled
  refine ⟨fun q r refused => ?_, fun d overflows => ?_⟩
  · have handled := Participant.handled settled.keeps (settled.limits ▸ settled.sound) m now
    have store : q.store = p.store := by
      rw [refused] at handled
      cases handled with
      | refused _ store => exact store
    obtain ⟨discover, committed, upcoming⟩ := queries_of_store store
    exact ⟨store, discover, committed, upcoming, settled.runtime_of_refused refused⟩
  · obtain ⟨q, r, handled, reason, runtime⟩ := overflows.handle_eq settled
    exact ⟨q, r, handled, reason, overflows.unlike, runtime⟩

/-! ## A commit that the log refuses -/

/-- A node over a log holds the founding that it has prepared, and has nobody to ask. -/
theorem settled_nestedNode : ∃ d, Settled ⟨none⟩ [nestedPrepare 0] (nestedNode 0) [d] ∧
    d.state = .prepared ∧ d.uuid = (nestedPrepare 0).uuid ∧ d.change = founding := by
  obtain ⟨h, settled⟩ := (lived_nested (by decide : 0 ≤ 100000)).settled
  have mode : (nestedNode 0).space.text? Key.mode = some Mode.prepared.text := by
    have written : (nestedNode 0).space = (nestedWrites 0).applyTo (logged "n").space := rfl
    rw [KeySpace.text?, written, nestedWrites, get?_prepareWrites]
    rfl
  obtain ⟨d, rfl, inFlight, uuid, change⟩ := settled.eq_singleton mode
  exact ⟨d, settled, inFlight, uuid, change⟩

theorem unopposed_nestedNode : ∀ l ∈ (nestedNode 0).processor.listeners, l.Agrees := by
  have nobody : (nestedNode 0).processor.listeners = [] := rfl
  simp [nobody]

/-- A sender whose name alone fills a frame. -/
def longHost : String := .ofList (.replicate Frame.payloadLimit 'x')

def longCommit : Close := ⟨⟨1, longHost, "ops"⟩, ⟨.replicate 32 1⟩⟩

/-- A node over a log is sent the commit of its founding by a sender with a long name. -/
theorem longCommit_changes_runtime : ∃ p d q r, Lived ⟨none⟩ [nestedPrepare 0] p ∧
    p.Overflows (.commit longCommit) noon d ∧
    p.handle (.commit longCommit) noon = (q, .error r) ∧ r.reason = .storage ∧
    q.store = p.store ∧ q.discover = p.discover ∧ q.committedTopology = p.committedTopology ∧
    q.upcomingTopology = p.upcomingTopology ∧
    p.runtimeTopology = none ∧ q.runtimeTopology = some foundedCluster := by
  have lived := lived_nested (by decide : 0 ≤ 100000)
  obtain ⟨d, settled, inFlight, uuid, change⟩ := settled_nestedNode
  have nothing : (nestedNode 0).runtimeTopology = none := rfl
  have result : d.result = foundedCluster := by
    cases settled.sound with
    | cons _ _ _ _ _ valid =>
      have applied := (Change.validate_eq_ok.1 valid).1
      rw [change] at applied
      exact (Except.ok.inj applied).symm
  have closes : (Message.commit longCommit).closes? =
      some (longCommit.context, d.uuid, .commit) := by
    rw [uuid]
    rfl
  have fence : History.messages [d] = longCommit.context.expected :=
    calc History.messages [d] = 1 + History.messages [] := by
          rw [History.messages_cons, if_pos inFlight]
      _ = longCommit.context.expected := rfl
  have agreed := Processor.apply_eq_ok d.change d.result unopposed_nestedNode
  have length : longCommit.context.host.toList.length = Frame.payloadLimit := by
    rw [longCommit, longHost, String.toList_ofList, List.length_replicate]
  have long : Frame.payloadLimit ≤ longCommit.context.host.toList.length := Nat.le_of_eq length.symm
  have overflows : (nestedNode 0).Overflows (.commit longCommit) noon d :=
    settled.overflows_of_host inFlight (by simp [nothing]) agreed closes rfl fence rfl long noon
  obtain ⟨kept, taken⟩ := lived.refused_changes_nothing (.commit longCommit) noon
  obtain ⟨q, r, refused, reason, -, runtime⟩ := taken d overflows
  obtain ⟨store, discover, committed, upcoming, -⟩ := kept q r refused
  exact ⟨_, d, q, r, lived, overflows, refused, reason, store, discover, committed, upcoming,
    nothing, runtime.trans (congrArg some result)⟩

end Participant
end Reconfig
