/-
What a node accepts.

A node that keeps its store in memory, and that nobody objects to, accepts a message exactly
where its history can take the message. So it follows a history wherever that leads.
-/
import Reconfig.Proofs.Participant.Continuation

namespace Reconfig

/-! ## Listeners that go on agreeing -/

namespace Listener

theorem agrees_ask {l : Listener} (agrees : l.Agrees) (change : Change) (result : Cluster) :
    (l.ask change result).1.Agrees := by
  have answered := agrees l.asked (Nat.le_refl _) change result
  rw [ask, answered]
  exact fun n later => agrees n (Nat.le_of_succ_le later)

theorem agrees_askAll (change : Change) (result : Cluster) {listeners : List Listener}
    (agree : ∀ l ∈ listeners, l.Agrees) : ∀ l ∈ (askAll change result listeners).1, l.Agrees := by
  induction listeners with
  | nil => exact agree
  | cons first rest ih =>
    obtain ⟨agrees, agree⟩ := List.forall_mem_cons.1 agree
    have kept := agrees_ask agrees change result
    unfold askAll
    split
    · rename_i asked
      rw [asked] at kept
      exact List.forall_mem_cons.2 ⟨kept, ih agree⟩
    · rename_i asked
      rw [asked] at kept
      exact List.forall_mem_cons.2 ⟨kept, agree⟩

end Listener

/-- Nobody objects to what is to take effect, now or later. -/
def Processor.Unopposed (p : Processor) : Prop := ∀ l ∈ p.listeners, l.Agrees

theorem Processor.Unopposed.apply {p : Processor} (unopposed : p.Unopposed) (change : Change)
    (result : Cluster) : (p.apply change result).1.Unopposed := by
  have kept := Listener.agrees_askAll change result unopposed
  unfold Processor.apply
  split
  · exact unopposed
  · split
    · rename_i asked
      rw [asked] at kept
      exact kept
    · rename_i asked
      rw [asked] at kept
      exact kept

namespace Participant

variable {p : Participant} {h h' : History} {limits : Limits} {accepted : List Prepare}
  {now : Timestamp}

theorem unopposed_close (unopposed : p.processor.Unopposed) (state : NodeState)
    (context : Context) (uuid : Uuid) (closing : Closing) (now : Timestamp) :
    (p.close state context uuid closing now).1.processor.Unopposed := by
  have effect : ∀ details, (p.takeEffect details closing).1.processor.Unopposed := by
    intro details
    unfold takeEffect
    split
    · exact unopposed.apply _ _
    · exact unopposed
  unfold close
  split
  · exact unopposed
  · split
    · exact unopposed
    · rename_i details _
      have kept := effect details
      split
      · rename_i taken
        rw [taken] at kept
        exact kept
      · rename_i taken
        rw [taken] at kept
        split <;> exact kept

theorem unopposed_handle (settled : Settled limits accepted p h)
    (unopposed : p.processor.Unopposed) (m : Message) (now : Timestamp) :
    (p.handle m now).1.processor.Unopposed := by
  obtain ⟨state, read, tells⟩ := settled.state_eq_ok
  have sound := settled.limits ▸ settled.sound
  rcases attempt_cases settled.keeps sound tells m now with
    ⟨refusal, attempted⟩ | ⟨m, rfl⟩ | ⟨d, below, context, closing, -, -, -, -, -, attempted⟩
  · rw [handle_of_attempt read attempted]
    exact unopposed
  · rw [processor_prepare]
    exact unopposed
  · rw [handle_of_attempt read attempted]
    exact unopposed_close unopposed state context d.uuid closing now

/-! ## Accepted messages -/

theorem prepare_eq_ok (settled : Settled limits accepted p h) (memory : p.store.InMemory)
    (short : h.length ≤ chainLimit) {m : Prepare}
    (accepts : History.Accepts limits h (.prepare m) now h') :
    (p.handle (.prepare m) now).2 = .ok () := by
  obtain ⟨result, fence, idle, version, fresh, valid, -⟩ := accepts.of_prepare
  obtain ⟨state, read, tells⟩ := settled.state_eq_ok
  have topology : p.space.committedTopology state.latest = .ok h.topology := by
    rw [tells.latest, settled.keeps.committedTopology_of_created settled.sound settled.created,
      if_pos short]
  have validated : p.processor.validate h.topology m.change = .ok result := by
    rw [Processor.validate, settled.limits]
    exact Outcome.mapError_eq_ok.2 valid
  have passed : p.checkPrepare state m = .ok result :=
    checkPrepare_eq_ok.2 ⟨tells.count.trans fence, tells.mode.trans idle,
      tells.currentVersion ▸ version, settled.keeps.request?_of_absent fresh, h.topology, topology,
      validated⟩
  obtain ⟨space, memory⟩ := memory
  have prepared : (p.prepare state m now).2 = .ok () := by
    simp only [prepare, passed, memory, Store.commit]
  simp only [handle, read, attempt, prepared, Outcome.mapError_ok]

/-- A node accepts only what its history can take. -/
theorem accepts_of_ok (settled : Settled limits accepted p h) {m : Message}
    (done : (p.handle m now).2 = .ok ()) : ∃ h', History.Accepts limits h m now h' := by
  have sound := settled.limits ▸ settled.sound
  obtain ⟨h', -, -, ⟨-, accepts⟩ | ⟨⟨r, refused⟩, -⟩, -⟩ :=
    (Participant.handled settled.keeps sound m now).history settled.keeps sound
  · exact ⟨h', settled.limits ▸ accepts⟩
  · rw [refused] at done
    cases done

/-- The node accepts all that its history can take, if it keeps its store in memory and nobody
objects. -/
theorem handle_eq_ok_iff (settled : Settled limits accepted p h) (memory : p.store.InMemory)
    (unopposed : p.processor.Unopposed) (short : h.length ≤ chainLimit) {m : Message} :
    (p.handle m now).2 = .ok () ↔ ∃ h', History.Accepts limits h m now h' := by
  refine ⟨accepts_of_ok settled, ?_⟩
  rintro ⟨h', accepts⟩
  cases id accepts with
  | prepare => exact prepare_eq_ok settled memory short accepts
  | close closing fence inFlight =>
    exact closing_eq_ok settled.keeps (settled.limits ▸ settled.sound) settled.legible memory
      unopposed inFlight closing fence now

end Participant

/-! ## Runs that nothing stands in the way of -/

namespace History

/-- The history takes the messages in their order. -/
inductive Takes (limits : Limits) : History → List (Message × Timestamp) → History → Prop
  | nil {h : History} : Takes limits h [] h
  | cons {h h' h'' : History} {m : Message} {now : Timestamp} {rest : List (Message × Timestamp)}
      (accepts : Accepts limits h m now h') (later : Takes limits h' rest h'') :
      Takes limits h ((m, now) :: rest) h''

variable {limits : Limits} {h h' h'' : History} {m : Message} {now : Timestamp}
  {messages rest : List (Message × Timestamp)}

theorem Accepts.unique (first : Accepts limits h m now h') (second : Accepts limits h m now h'') :
    h' = h'' := by
  cases first with
  | prepare _ _ _ _ valid =>
    obtain ⟨result, -, -, -, -, valid', rfl⟩ := second.of_prepare
    rw [valid] at valid'
    cases valid'
    rfl
  | close closing =>
    obtain ⟨d, below, shape, -, -, -, rfl⟩ := second.of_closing closing
    cases shape
    rfl

theorem Accepts.length_le (accepts : Accepts limits h m now h') : h.length ≤ h'.length := by
  cases accepts with
  | prepare => exact Nat.le_succ _
  | close => exact Nat.le_refl _

theorem Takes.length_le (takes : Takes limits h messages h') : h.length ≤ h'.length := by
  induction takes with
  | nil => exact Nat.le_refl _
  | cons accepts _ ih => exact Nat.le_trans accepts.length_le ih

theorem Takes.append (takes : Takes limits h messages h') (later : Takes limits h' rest h'') :
    Takes limits h (messages ++ rest) h'' := by
  induction takes with
  | nil => exact later
  | cons accepts _ ih => exact .cons accepts (ih later)

end History

namespace Participant

theorem Lived.handleAll {limits : Limits} {accepted : List Prepare} {p : Participant}
    (lived : Lived limits accepted p) {messages : List (Message × Timestamp)}
    (storable : ∀ e ∈ messages, e.2.Storable) :
    ∃ accepted', Lived limits accepted' (p.handleAll messages).1 := by
  induction messages generalizing p accepted with
  | nil => exact ⟨accepted, lived⟩
  | cons first rest ih =>
    obtain ⟨storableFirst, storable⟩ := List.forall_mem_cons.1 storable
    exact ih (lived.handled first.1 first.2 storableFirst) storable

/-- What a pass sends to a node that has accepted the given number of messages. -/
def passMessages (expected : Nat) (uuid : Uuid) (version : Nat) (change : Change) :
    List (Message × Timestamp) :=
  [(.prepare ⟨⟨expected, "east", "ops"⟩, uuid, version, change⟩, noon),
    (.commit ⟨⟨expected + 1, "east", "ops"⟩, uuid⟩, noon)]

/-- An idle history takes a whole pass, and then has one more committed change. -/
theorem takes_passMessages {limits : Limits} {h : History} (idle : h.mode = .accepting)
    (uuid : Uuid) (fresh : ∀ d ∈ h, d.uuid ≠ uuid) {change : Change} {result : Cluster}
    (valid : change.validate h.topology limits = .ok result) : ∃ d,
      History.Takes limits h (passMessages h.messages uuid (h.version + 1) change) (d :: h) ∧
        d.uuid = uuid ∧ d.state = .committed ∧ d.result = result := by
  let m : Prepare := ⟨⟨h.messages, "east", "ops"⟩, uuid, h.version + 1, change⟩
  have prepares : History.Accepts limits h (.prepare m) noon (h.request m result noon :: h) :=
    .prepare rfl idle rfl fresh valid
  have commits : History.Accepts limits (h.request m result noon :: h)
      (.commit ⟨⟨h.messages + 1, "east", "ops"⟩, uuid⟩) noon
      ((h.request m result noon).inState .committed :: h) :=
    .close rfl prepares.messages rfl
  exact ⟨_, .cons prepares (.cons commits .nil), rfl, rfl, rfl⟩

/-- A node in a state that it can come to, in memory and without objections, and its history. -/
structure Unhindered (limits : Limits) (p : Participant) (h : History) : Prop where
  settled : ∃ accepted, Settled limits accepted p h
  memory : p.store.InMemory
  unopposed : p.processor.Unopposed

variable {p : Participant} {h h' : History} {limits : Limits} {now : Timestamp}

namespace Unhindered

theorem handle_cases (unhindered : p.Unhindered limits h) (m : Message)
    (storable : now.Storable) : ∃ h', (p.handle m now).1.Unhindered limits h' ∧
      ((p.handle m now).2 = .ok () ∧ History.Accepts limits h m now h' ∨
        (∃ r, (p.handle m now).2 = .error r) ∧ h' = h) := by
  obtain ⟨⟨accepted, settled⟩, memory, unopposed⟩ := unhindered
  have stands : p.Stands h := ⟨_, _, settled⟩
  obtain ⟨h', settled', taken⟩ := settled.handle m storable
  exact ⟨h', ⟨⟨_, settled'⟩, stands.inMemory_handle m now memory,
    unopposed_handle settled unopposed m now⟩, taken⟩

theorem handle (unhindered : p.Unhindered limits h) {m : Message}
    (accepts : History.Accepts limits h m now h') (short : h.length ≤ chainLimit)
    (storable : now.Storable) :
    (p.handle m now).2 = .ok () ∧ (p.handle m now).1.Unhindered limits h' := by
  obtain ⟨h'', next, ⟨done, accepts'⟩ | ⟨⟨r, refused⟩, -⟩⟩ := unhindered.handle_cases m storable
  · obtain rfl := accepts.unique accepts'
    exact ⟨done, next⟩
  · obtain ⟨⟨accepted, settled⟩, memory, unopposed⟩ := unhindered
    have done := (handle_eq_ok_iff settled memory unopposed short).2 ⟨h', accepts⟩
    rw [refused] at done
    cases done

theorem refuse (unhindered : p.Unhindered limits h) {m : Message}
    (never : ∀ h', ¬ History.Accepts limits h m now h') (storable : now.Storable) :
    (∃ r, (p.handle m now).2 = .error r) ∧ (p.handle m now).1.Unhindered limits h := by
  obtain ⟨h', next, ⟨-, accepts⟩ | ⟨refused, rfl⟩⟩ := unhindered.handle_cases m storable
  · exact absurd accepts (never h')
  · exact ⟨refused, next⟩

/-- Whatever run a history allows, such a node accepts it to the end. -/
theorem handleAll {messages : List (Message × Timestamp)} (unhindered : p.Unhindered limits h)
    (takes : History.Takes limits h messages h') (short : h'.length ≤ chainLimit)
    (storable : ∀ e ∈ messages, e.2.Storable) :
    (p.handleAll messages).2 = messages.map (fun _ => .ok ()) ∧
      (p.handleAll messages).1.Unhindered limits h' := by
  induction takes generalizing p with
  | nil => exact ⟨rfl, unhindered⟩
  | cons accepts later ih =>
    obtain ⟨storableFirst, storable⟩ := List.forall_mem_cons.1 storable
    have room := Nat.le_trans (Nat.le_trans accepts.length_le later.length_le) short
    obtain ⟨done, unhindered⟩ := unhindered.handle accepts room storableFirst
    obtain ⟨answers, unhindered⟩ := ih unhindered short storable
    refine ⟨?_, unhindered⟩
    simp only [Participant.handleAll, answers, done, List.map_cons]

theorem of_start {name : String} {processor : Processor}
    (started : start name .empty processor = .ok p) (unopposed : processor.Unopposed) :
    p.Unhindered processor.limits [] := by
  refine ⟨⟨_, .of_start .memory started⟩, ?_, ?_⟩
  · obtain ⟨initialized, -⟩ := start_eq_ok started
    exact Store.InMemory.of_commit ⟨∅, rfl⟩ initialized
  · obtain ⟨_, -, resumed⟩ := Outcome.bind_eq_ok.1 started
    obtain ⟨_, -, resumed⟩ := Outcome.bind_eq_ok.1 resumed
    obtain ⟨_, -, resumed⟩ := Outcome.bind_eq_ok.1 resumed
    cases resumed
    exact unopposed

theorem restart (unhindered : p.Unhindered limits h) (short : h.length ≤ chainLimit)
    (name : String) {processor : Processor} (limited : processor.limits = limits)
    (unopposed : processor.Unopposed) : ∃ q, p.store.reopened = .ok p.store ∧
      start name p.store processor = .ok q ∧ q.Unhindered limits h := by
  obtain ⟨⟨accepted, settled⟩, ⟨space, memory⟩, -⟩ := unhindered
  have reopened : p.store.reopened = .ok p.store := by
    rw [memory]
    rfl
  have started := settled.start_eq name processor
  rw [if_pos short] at started
  exact ⟨_, reopened, started, ⟨_, settled.restart reopened limited started⟩, ⟨space, memory⟩,
    unopposed⟩

end Unhindered

theorem unhindered_blank (name : String) : (blank name).Unhindered ⟨none⟩ [] :=
  .of_start (start_blank name) (by simp [Processor.Unopposed, Processor.new])

/-! ## A contested founding -/

def rivalPrepare : Prepare := ⟨⟨0, "west", "ops"⟩, ⟨.replicate 32 2⟩, 1, founding⟩

/-- Two coordinators send a new node its first change at once. The node takes part in one of the
changes, is started again under another name, and commits the change. -/
theorem contested_lives : ∃ p q r d refusal, start "n" .empty (.new ⟨none⟩ []) = .ok p ∧
    p.LivesOn [(.prepare foundingPrepare, .ok ()), (.prepare rivalPrepare, .error refusal)] q ∧
    q.LivesOn [(.commit foundingCommit, .ok ())] r ∧ q.Unhindered ⟨none⟩ [d] ∧
    r.Unhindered ⟨none⟩ [d.inState .committed] ∧ d.uuid = ⟨.replicate 32 1⟩ ∧
    d.state = .prepared ∧ d.result = foundedCluster := by
  let d := History.request [] foundingPrepare foundedCluster noon
  have storable : noon.Storable := by decide
  have short : [d].length ≤ chainLimit := by decide
  have founds : History.Accepts ⟨none⟩ [] (.prepare foundingPrepare) noon [d] :=
    .prepare rfl rfl rfl (by simp) (Change.validate_eq_ok.2 ⟨rfl, rfl, rfl⟩)
  have late : ∀ h', ¬ History.Accepts ⟨none⟩ [d] (.prepare rivalPrepare) noon h' := by
    intro h' accepts
    obtain ⟨_, -, idle, -⟩ := accepts.of_prepare
    cases idle
  have closes : History.Accepts ⟨none⟩ [d] (.commit foundingCommit) noon [d.inState .committed] :=
    .close rfl rfl rfl
  have new := unhindered_blank "n"
  obtain ⟨prepared, holding⟩ := new.handle founds (Nat.zero_le _) storable
  obtain ⟨⟨refusal, refused⟩, holding⟩ := holding.refuse late storable
  obtain ⟨q, reopened, started, holding⟩ := holding.restart short "m" rfl new.unopposed
  obtain ⟨committed, closed⟩ := holding.handle closes short storable
  have lives := ((LivesOn.here.handled (.prepare foundingPrepare) storable).handled
    (.prepare rivalPrepare) storable).restarted reopened started
  have later := (LivesOn.here : q.LivesOn [] q).handled (.commit foundingCommit) storable
  rw [prepared, refused] at lives
  rw [committed] at later
  exact ⟨_, q, _, d, refusal, start_blank "n", lives, later, holding, closed, rfl, rfl, rfl⟩

end Participant
end Reconfig
