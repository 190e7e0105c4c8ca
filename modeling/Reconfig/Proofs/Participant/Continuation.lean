/-
What becomes of a node.

From any state a node goes on by messages and restarts, and a restart may bring another name,
other limits and other listeners. The limits only say what a node refuses to prepare: whatever it
accepts it would also accept without any. Seen without its limits a node keeps one history all
along, which grows with the messages that it accepts and with nothing else.
-/
import Reconfig.Proofs.Participant.Participation

namespace Reconfig

/-! ## Messages and their answers -/

/-- Who sends the message, and the state that the sender knows of. -/
def Message.context : Message → Context
  | .prepare m => m.context
  | .commit m => m.context
  | .rollback m => m.context
  | .force m => m.context

theorem Message.context_of_closing? {m : Message} {context : Context} {uuid : Uuid}
    {target : ChangeState} (closing : m.closing? = some (context, uuid, target)) :
    m.context = context := by
  cases m with
  | prepare m => cases closing
  | commit m =>
    cases closing
    rfl
  | rollback m =>
    cases closing
    rfl
  | force m =>
    rw [closing?] at closing
    split at closing
    · cases closing
    · cases closing
      rfl

theorem History.Accepts.fence {limits : Limits} {h h' : History} {m : Message} {now : Timestamp}
    (accepts : Accepts limits h m now h') : m.context.expected = h.messages := by
  cases accepts with
  | prepare fence => exact fence.symm
  | close closing fence => rw [Message.context_of_closing? closing, fence]

/-- Messages with the answers to them, in the order in which they came. -/
abbrev Exchanges := List (Message × Answer)

namespace Exchanges

/-- The messages that were accepted. -/
def accepted (log : Exchanges) : List Message := (log.filter (·.2.isOk)).map (·.1)

/-- The prepare messages among them. -/
def prepared (log : Exchanges) : List Prepare := log.filterMap fun e => e.1.accepted? e.2

variable (log rest : Exchanges) (m : Message)

theorem accepted_append : accepted (log ++ rest) = log.accepted ++ rest.accepted := by
  rw [accepted, List.filter_append, List.map_append, accepted, accepted]

theorem prepared_append : prepared (log ++ rest) = log.prepared ++ rest.prepared :=
  List.filterMap_append

theorem accepted_concat_ok : accepted (log ++ [(m, .ok ())]) = log.accepted ++ [m] :=
  accepted_append ..

theorem accepted_concat_error (r : Rejection) :
    accepted (log ++ [(m, .error r)]) = log.accepted := by
  rw [accepted_append]
  exact List.append_nil _

/-- Kept with the newest first, the prepare messages grow at the front. -/
theorem reverse_prepared_concat (answer : Answer) : (prepared (log ++ [(m, answer)])).reverse =
    (m.accepted? answer).toList ++ log.prepared.reverse := by
  rw [prepared_append, List.reverse_append]
  congr 1
  cases taken : m.accepted? answer <;> simp [prepared, taken]

theorem mem_prepared {log : Exchanges} {m : Prepare} :
    m ∈ log.prepared ↔ (.prepare m, .ok ()) ∈ log := by
  rw [prepared, List.mem_filterMap]
  constructor
  · rintro ⟨⟨sent, answer⟩, mem, taken⟩
    cases answer with
    | error r =>
      rw [Message.accepted?_error] at taken
      cases taken
    | ok =>
      cases sent with
      | prepare =>
        cases taken
        exact mem
      | _ => cases taken
  · exact fun mem => ⟨_, mem, rfl⟩

end Exchanges

/-! ## Lives that go on -/

namespace Participant

/-- A node that was just started over a store that nothing was written into. -/
def IsNew (p : Participant) : Prop :=
  ∃ name store processor, Store.Blank store ∧ start name store processor = .ok p

/-- The first node may turn into the second one. It is sent messages, whoever may send them, which
are noted with its answers, and it may be started again over its store at any point. -/
inductive LivesOn (p : Participant) : Exchanges → Participant → Prop
  | here : LivesOn p [] p
  | handled {log : Exchanges} {q : Participant} (earlier : LivesOn p log q) (m : Message)
      {now : Timestamp} (storable : now.Storable) :
      LivesOn p (log ++ [(m, (q.handle m now).2)]) (q.handle m now).1
  | restarted {log : Exchanges} {q r : Participant} (earlier : LivesOn p log q) {name : String}
      {store : Store} {processor : Processor} (reopened : q.store.reopened = .ok store)
      (started : start name store processor = .ok r) : LivesOn p log r

end Participant

/-! ## Nodes without limits -/

namespace Processor

/-- No matter how much a change may add up to. -/
def unlimited (p : Processor) : Processor := { p with limits := ⟨none⟩ }

theorem apply_unlimited (p : Processor) (change : Change) (result : Cluster) :
    p.unlimited.apply change result =
      ((p.apply change result).1.unlimited, (p.apply change result).2) := by
  have runtime : p.unlimited.runtime = p.runtime := rfl
  have listeners : p.unlimited.listeners = p.listeners := rfl
  unfold apply
  rw [runtime, listeners]
  split
  · rfl
  · split <;> rfl

theorem validate_unlimited {p : Processor} {current : Option Cluster} {change : Change}
    {result : Cluster} (valid : p.validate current change = .ok result) :
    p.unlimited.validate current change = .ok result := by
  obtain ⟨applied, formed, -⟩ := Change.validate_eq_ok.1 (Outcome.mapError_eq_ok.1 valid)
  exact Outcome.mapError_eq_ok.2 (Change.validate_eq_ok.2 ⟨applied, formed, rfl⟩)

end Processor

namespace Participant

variable {p q : Participant} {h : History} {accepted : List Prepare} {state : NodeState}
  {now : Timestamp}

def unlimited (p : Participant) : Participant := { p with processor := p.processor.unlimited }

theorem start_unlimited {name : String} {store : Store} {processor : Processor}
    (started : start name store processor = .ok p) :
    start name store processor.unlimited = .ok p.unlimited := by
  obtain ⟨written, initialized, resumed⟩ := Outcome.bind_eq_ok.1 started
  obtain ⟨state, read, resumed⟩ := Outcome.bind_eq_ok.1 resumed
  obtain ⟨committed, topology, resumed⟩ := Outcome.bind_eq_ok.1 resumed
  cases resumed
  exact Outcome.bind_eq_ok.2 ⟨written, initialized,
    Outcome.bind_eq_ok.2 ⟨state, read, Outcome.bind_eq_ok.2 ⟨committed, topology, rfl⟩⟩⟩

theorem close_unlimited (p : Participant) (state : NodeState) (context : Context) (uuid : Uuid)
    (closing : Closing) (now : Timestamp) : p.unlimited.close state context uuid closing now =
      ((p.close state context uuid closing now).1.unlimited,
        (p.close state context uuid closing now).2) := by
  have space : p.unlimited.space = p.space := rfl
  have effect : ∀ details, p.unlimited.takeEffect details closing =
      ((p.takeEffect details closing).1.unlimited, (p.takeEffect details closing).2) := by
    intro details
    have applied := p.processor.apply_unlimited details.change details.result
    unfold takeEffect
    split
    · rw [show p.unlimited.processor = p.processor.unlimited from rfl, applied]
      rfl
    · rfl
  unfold close
  rw [space]
  split
  · rfl
  · split
    · rfl
    · rename_i details _
      rw [effect]
      cases p.takeEffect details closing with
      | mk next outcome =>
        cases outcome with
        | error e => rfl
        | ok =>
          have store : next.unlimited.store = next.store := rfl
          dsimp only
          rw [store]
          split <;> rfl

theorem closePrepared_unlimited (p : Participant) (state : NodeState) (m : Close)
    (closing : Closing) (now : Timestamp) : p.unlimited.closePrepared state m closing now =
      ((p.closePrepared state m closing now).1.unlimited,
        (p.closePrepared state m closing now).2) := by
  unfold closePrepared
  split
  · rfl
  · exact p.close_unlimited ..

theorem force_unlimited (p : Participant) (state : NodeState) (m : Force) (now : Timestamp) :
    p.unlimited.force state m now =
      ((p.force state m now).1.unlimited, (p.force state m now).2) := by
  have checked : p.unlimited.checkForce state m = p.checkForce state m := rfl
  unfold force
  rw [checked]
  split
  · rfl
  · exact p.close_unlimited ..

theorem prepare_unlimited {m : Prepare} (done : (p.prepare state m now).2 = .ok ()) :
    p.unlimited.prepare state m now = ((p.prepare state m now).1.unlimited, .ok ()) := by
  unfold prepare at done ⊢
  split at done
  · cases done
  · rename_i result passed
    obtain ⟨fence, accepting, version, asked, current, topology, valid⟩ :=
      checkPrepare_eq_ok.1 passed
    have passed' : p.unlimited.checkPrepare state m = .ok result :=
      checkPrepare_eq_ok.2 ⟨fence, accepting, version, asked, current, topology,
        Processor.validate_unlimited valid⟩
    have store : p.unlimited.store = p.store := rfl
    split at done
    · rename_i written committed
      simp only [passed', store, committed]
      rfl
    · cases done

/-- Without its limits a node does what it does with them, unless it refuses to prepare a
change. -/
theorem handle_unlimited (p : Participant) (m : Message) (now : Timestamp) :
    p.unlimited.handle m now = ((p.handle m now).1.unlimited, (p.handle m now).2) ∨
      (p.handle m now).1 = p ∧ ∃ r, (p.handle m now).2 = .error r := by
  cases read : p.state with
  | error e =>
    have read' : p.unlimited.state = .error e := read
    simp only [handle, read, read', true_or]
  | ok state =>
    have read' : p.unlimited.state = .ok state := read
    have handled : p.handle m now = ((p.attempt state m now).1,
        (p.attempt state m now).2.mapError (p.rejection state m.phase)) :=
      handle_of_attempt read rfl
    have alike (same : p.unlimited.attempt state m now =
        ((p.attempt state m now).1.unlimited, (p.attempt state m now).2)) :
        p.unlimited.handle m now = ((p.handle m now).1.unlimited, (p.handle m now).2) := by
      rw [handle_of_attempt read' same, handled]
      rfl
    -- only a prepare message is measured against the limits
    cases m with
    | prepare m =>
      have attempted : p.attempt state (.prepare m) now = p.prepare state m now := rfl
      cases done : (p.prepare state m now).2 with
      | error refusal =>
        have refused : (p.handle (.prepare m) now).2 =
            .error (p.rejection state .prepare refusal) := by
          rw [handled, attempted, done]
          rfl
        exact .inr ⟨handle_prepare_refused refused, _, refused⟩
      | ok => exact .inl (alike ((prepare_unlimited done).trans (by rw [attempted, done])))
    | commit m => exact .inl (alike (p.closePrepared_unlimited ..))
    | rollback m => exact .inl (alike (p.closePrepared_unlimited ..))
    | force m => exact .inl (alike (p.force_unlimited ..))

/-! ## What a life leaves of a node -/

/-- The history of a node goes on while the node lives on. -/
structure Continues (accepted : List Prepare) (p : Participant) (h : History) (log : Exchanges)
    (q : Participant) (h' : History) : Prop where
  settled : Settled ⟨none⟩ (log.prepared.reverse ++ accepted) q.unlimited h'
  leads : History.Leads h h'
  messages : h'.messages = h.messages + log.accepted.length
  expected : log.accepted.map (·.context.expected) = List.range' h.messages log.accepted.length
  untouched : log.accepted = [] → q.store = p.store

theorem IsNew.settled (new : p.IsNew) : Settled ⟨none⟩ [] p.unlimited [] := by
  obtain ⟨name, store, processor, blank, started⟩ := new
  exact .of_start blank (start_unlimited started)

/-- One message takes the history further, or nothing is written. -/
theorem Settled.unlimited_handle (settled : Settled ⟨none⟩ accepted p.unlimited h) (m : Message)
    (storable : now.Storable) : ∃ h',
      Settled ⟨none⟩ ((m.accepted? (p.handle m now).2).toList ++ accepted)
        (p.handle m now).1.unlimited h' ∧
      ((p.handle m now).2 = .ok () ∧ History.Accepts ⟨none⟩ h m now h' ∨
        (∃ r, (p.handle m now).2 = .error r) ∧ h' = h ∧ (p.handle m now).1.store = p.store) := by
  rcases p.handle_unlimited m now with same | ⟨unchanged, r, refused⟩
  · obtain ⟨h', settled', taken⟩ := settled.handle m storable
    rw [same] at settled' taken
    refine ⟨h', settled', taken.imp_right fun ⟨⟨r, refused⟩, kept⟩ => ⟨⟨r, refused⟩, kept, ?_⟩⟩
    have store := settled.store_of_refused (same ▸ refused)
    rw [same] at store
    exact store
  · rw [unchanged, refused, m.accepted?_error]
    exact ⟨h, settled, .inr ⟨⟨r, rfl⟩, rfl, rfl⟩⟩

namespace Continues

variable {log : Exchanges} {h' : History}

theorem handle (earlier : Continues accepted p h log q h') (m : Message)
    (storable : now.Storable) : ∃ h'',
      Continues accepted p h (log ++ [(m, (q.handle m now).2)]) (q.handle m now).1 h'' := by
  obtain ⟨h'', settled, taken⟩ := earlier.settled.unlimited_handle m storable
  rw [← List.append_assoc, ← log.reverse_prepared_concat] at settled
  refine ⟨h'', ?_⟩
  rcases taken with ⟨done, accepts⟩ | ⟨⟨r, refused⟩, rfl, store⟩
  · rw [done] at settled ⊢
    have grown := log.accepted_concat_ok m
    refine ⟨settled, earlier.leads.tail ⟨_, _, _, accepts⟩, ?_, ?_, fun none => ?_⟩
    · rw [accepts.messages, earlier.messages, grown, List.length_append]
      rfl
    · rw [grown, List.map_append, earlier.expected, List.length_append, List.map_singleton,
        accepts.fence, earlier.messages, List.length_singleton, List.range'_1_concat]
    · rw [grown] at none
      exact absurd none (by simp)
  · rw [refused] at settled ⊢
    have kept := log.accepted_concat_error m r
    refine ⟨settled, earlier.leads, ?_, ?_, fun none => ?_⟩
    · rw [kept, earlier.messages]
    · rw [kept, earlier.expected]
    · rw [kept] at none
      exact store.trans (earlier.untouched none)

theorem restart (earlier : Continues accepted p h log q h') {r : Participant} {name : String}
    {store : Store} {processor : Processor} (reopened : q.store.reopened = .ok store)
    (started : start name store processor = .ok r) : Continues accepted p h log r h' := by
  have started := start_unlimited started
  have same : r.unlimited.store = q.store := earlier.settled.store_of_restart reopened started
  exact ⟨earlier.settled.restart reopened rfl started, earlier.leads, earlier.messages,
    earlier.expected, fun none => same.trans (earlier.untouched none)⟩

end Continues

theorem LivesOn.continues {log : Exchanges} (lives : p.LivesOn log q)
    (settled : Settled ⟨none⟩ accepted p.unlimited h) : ∃ h', Continues accepted p h log q h' := by
  induction lives with
  | here => exact ⟨h, settled, .refl, rfl, rfl, fun _ => rfl⟩
  | handled _ m storable ih =>
    obtain ⟨h', earlier⟩ := ih
    exact earlier.handle m storable
  | restarted _ reopened started ih =>
    obtain ⟨h', earlier⟩ := ih
    exact ⟨h', earlier.restart reopened started⟩

theorem LivesOn.trans {r : Participant} {log rest : Exchanges} (past : p.LivesOn log q)
    (future : q.LivesOn rest r) : p.LivesOn (log ++ rest) r := by
  induction future with
  | here =>
    rw [List.append_nil]
    exact past
  | handled _ m storable ih =>
    rw [← List.append_assoc]
    exact ih.handled m storable
  | restarted _ reopened started ih => exact ih.restarted reopened started

end Participant
end Reconfig
