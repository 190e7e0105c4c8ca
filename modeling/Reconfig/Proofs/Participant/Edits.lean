/-
A request is read back as it was kept, in the last state that it was given.

Whatever is written to the store besides, the record under the identity of the request stays that of
the request, in the state that was written last. So the fields come back from their texts, numbers
and documents, and the hash of the result is computed anew from the topology that was read. Only the
time of creation may be lost: the stored form has four digits for the year.
-/
import Reconfig.Participant.Basic
import Reconfig.Participant.Edit
import Reconfig.Proofs.Participant.Request
import Reconfig.Proofs.Participant.Restart
import Reconfig.Proofs.Time.StoredText

namespace Reconfig

/-! ## Years of other than four digits -/

theorem Timestamp.parseStrict?_storedText_of_year {t : Timestamp}
    (outside : ¬ (0 ≤ t.year ∧ t.year ≤ 9999)) : parseStrict? t.storedText = none := by
  obtain ⟨sign, rest, shape, noDigit⟩ : ∃ sign rest,
      t.storedText.toList = sign :: rest ∧ sign.isDigit = false := by
    rw [storedText, String.toList_ofList, chars, yearChars, if_neg outside]
    by_cases negative : t.year < 0
    · exact ⟨'-', _, by rw [if_pos negative]; rfl, rfl⟩
    · exact ⟨'+', _, by rw [if_neg negative]; rfl, rfl⟩
  have unread : number? 4 4 t.storedText.toList = none := by
    rw [shape]
    simp [number?, noDigit]
  rw [parseStrict?, unread]
  rfl

namespace KeySpace

variable {space : KeySpace} {d : ChangeDetails}

/-- The space keeps the request under its identity. -/
def Stores (space : KeySpace) (d : ChangeDetails) : Prop :=
  space.requestRecord? d.uuid = some d.toRecord

theorem requestRecord?_insert (space : KeySpace) (key : String) (value : Value) (uuid : Uuid) :
    requestRecord? (space.insert key value) uuid =
      if uuid.text = key then value.record? else space.requestRecord? uuid := by
  rw [requestRecord?, record?, Dict.get?_insert]
  split <;> rfl

/-! ## Reading a request that is kept -/

theorem lineageEntry_uuid {uuid : Uuid} {e : LineageEntry}
    (read : space.lineageEntry uuid = .ok e) : e.uuid = uuid := by
  unfold lineageEntry at read
  split at read
  · cases read
  · rw [LineageEntry.ofRecord, Outcome.bind_eq_ok] at read
    obtain ⟨previous, -, read⟩ := read
    obtain ⟨version, -, read⟩ := Outcome.bind_eq_ok.1 read
    obtain ⟨state, -, read⟩ := Outcome.bind_eq_ok.1 read
    cases read
    rfl

/-- Every entry of a chain is what is kept of its request. -/
theorem lineageEntry_of_chain {fuel : Nat} {latest : Option Uuid} {entries : List LineageEntry}
    (walked : space.chain fuel latest = .ok entries) :
    ∀ e ∈ entries, space.lineageEntry e.uuid = .ok e := by
  induction fuel generalizing latest entries with
  | zero =>
    cases latest with
    | none =>
      cases walked
      exact List.forall_mem_nil _
    | some uuid =>
      obtain ⟨entry, -, more⟩ := Outcome.bind_eq_ok.1 walked
      cases more
  | succ fuel ih =>
    cases latest with
    | none =>
      cases walked
      exact List.forall_mem_nil _
    | some uuid =>
      obtain ⟨entry, read, more⟩ := Outcome.bind_eq_ok.1 walked
      obtain ⟨rest, walkedRest, whole⟩ := Outcome.bind_eq_ok.1 more
      cases whole
      refine List.forall_mem_cons.2 ⟨?_, ih walkedRest⟩
      rw [lineageEntry_uuid read, read]

namespace Stores

theorem lineageEntry (stores : space.Stores d) : space.lineageEntry d.uuid = .ok d.entry := by
  rw [KeySpace.lineageEntry, stores]
  exact d.entry_ofRecord

theorem chain_succ (stores : space.Stores d) (fuel : Nat) :
    space.chain (fuel + 1) (some d.uuid) =
      (space.chain fuel d.previous).map (d.entry :: ·) := by
  rw [chain, stores.lineageEntry]
  show (do let rest ← space.chain fuel d.previous; pure (d.entry :: rest)) = _
  cases space.chain fuel d.previous <;> rfl

theorem request?_eq (stores : space.Stores d) (intact : d.resultHash = d.result.hash) :
    space.request? d.uuid =
      (readTimestamp d.created.storedText).map fun created => some { d with created } := by
  rw [request?, stores]
  show (ChangeDetails.ofRecord d.uuid d.toRecord).map some = _
  rw [d.ofRecord_toRecord intact]
  cases readTimestamp d.created.storedText <;> rfl

theorem request?_of_tampered (stores : space.Stores d)
    (tampered : d.resultHash ≠ d.result.hash) :
    space.request? d.uuid = .error (.hashMismatch d.resultHash d.result.hash) := by
  rw [request?, stores]
  show (ChangeDetails.ofRecord d.uuid d.toRecord).map some = _
  simp [ChangeDetails.ofRecord, ChangeDetails.read?_operation, ChangeDetails.read?_result,
    ChangeDetails.requiredText_resultHash, tampered.symm]

end Stores

/-- What is read of a request that is kept. The hash of its result is checked before its time is
read. -/
structure ReadsBack (space : KeySpace) (d : ChangeDetails) : Prop where
  details : d.resultHash = d.result.hash → d.created.Storable →
    space.request? d.uuid = .ok (some d)
  untimed : d.resultHash = d.result.hash → ¬ (0 ≤ d.created.year ∧ d.created.year ≤ 9999) →
    (space.request? d.uuid).mapError StateFault.toError =
      .error (.corrupted s!"invalid timestamp {d.created.storedText}")
  tampered : d.resultHash ≠ d.result.hash →
    (space.request? d.uuid).mapError StateFault.toError =
      .error (.checksumMismatch d.resultHash d.result.hash)
  listed : ∀ latest entries, space.lineage latest = .ok entries →
    ∀ e ∈ entries, e.uuid = d.uuid → e = d.entry
  lineage : space.lineage (some d.uuid) =
    (space.chain (chainLimit - 1) d.previous).map (d.entry :: ·)

theorem Stores.readsBack (stores : space.Stores d) : space.ReadsBack d where
  details intact storable := by
    rw [stores.request?_eq intact, readTimestamp, Timestamp.parseStrict?_storedText storable]
    rfl
  untimed intact outside := by
    rw [stores.request?_eq intact, readTimestamp,
      Timestamp.parseStrict?_storedText_of_year outside]
    rfl
  tampered tampered := by
    rw [stores.request?_of_tampered tampered]
    rfl
  listed latest entries walked e mem same := by
    have read := lineageEntry_of_chain walked e mem
    rw [same, stores.lineageEntry] at read
    exact (Except.ok.inj read).symm
  lineage := stores.chain_succ (chainLimit - 1)

/-! ## Writing to the store that keeps it -/

theorem Stores.put (stores : space.Stores d) {key : String} (other : key ≠ d.uuid.text)
    (value : Value) : Stores (space.insert key value) d := by
  rw [Stores, requestRecord?_insert, if_neg other.symm, stores]

end KeySpace

namespace Edit

/-- The edit gives the request another state, or writes to another key. -/
def Spares (uuid : Uuid) (e : Edit) : Prop := (∃ state, e = .mark uuid state) ∨ e.key ≠ uuid.text

theorem spares_mark (marked : Uuid) (state : ChangeState) (uuid : Uuid) :
    (mark marked state).Spares uuid := by
  by_cases same : marked = uuid
  · exact .inl ⟨state, by rw [same]⟩
  · exact .inr fun text => same (Uuid.text_inj.1 text)

end Edit

open KeySpace

variable {s t : Store} {d : ChangeDetails} {e : Edit} {edits : List Edit} {w : Write}

theorem Edit.key_of_write {space : KeySpace} (written : e.write space = .ok w) : w.key = e.key := by
  cases e with
  | keep | put =>
    cases written
    rfl
  | mark uuid state =>
    rw [Edit.write] at written
    split at written <;> cases written
    rfl

theorem Edit.mark?_of_key {uuid : Uuid} (other : e.key ≠ uuid.text) : e.mark? uuid = none := by
  cases e with
  | keep | put => rfl
  | mark marked state =>
    refine if_neg fun same => other ?_
    rw [Edit.key, same]

/-- The state that a request has after it is marked. -/
def lastMark (state : ChangeState) (marks : List ChangeState) : ChangeState :=
  marks.getLast?.getD state

theorem lastMark_append (state : ChangeState) (before after : List ChangeState) :
    lastMark state (before ++ after) = lastMark (lastMark state before) after := by
  rw [lastMark, List.getLast?_append]
  cases shape : after.getLast? <;> simp [lastMark, shape]

/-- A mark is written into the record in the store, which shows the request as it was before the
group. -/
theorem Edit.stores_of_write {base space : KeySpace} {state : ChangeState}
    (now : space.Stores (d.inState state)) (spares : e.Spares d.uuid)
    (stores : e.key = d.uuid.text → base.Stores d) (written : e.write base = .ok w) :
    Stores (space.insert w.key w.value)
      (d.inState (lastMark state (e.mark? d.uuid).toList)) := by
  rcases spares with ⟨next, rfl⟩ | other
  · rw [Edit.write, stores rfl] at written
    cases written
    rw [mark?, if_pos rfl]
    show Stores _ (d.inState next)
    rw [d.insert_state, Stores, requestRecord?_insert]
    exact (if_pos rfl).trans (Value.record?_ofRecord _)
  · rw [mark?_of_key other]
    rw [← Edit.key_of_write written] at other
    exact now.put other w.value

theorem Edit.stores_of_writes {base space : KeySpace} {state : ChangeState}
    (now : space.Stores (d.inState state)) (spare : ∀ e ∈ edits, e.Spares d.uuid)
    (stores : ∀ e ∈ edits, e.key = d.uuid.text → base.Stores d) {writes : List Write}
    (written : edits.mapM (Edit.write base) = .ok writes) :
    Stores (ChangeSet.applyTo ⟨writes⟩ space)
      (d.inState (lastMark state (edits.filterMap (Edit.mark? d.uuid)))) := by
  induction edits generalizing space state writes with
  | nil =>
    cases written
    exact now
  | cons e rest ih =>
    have ⟨spares, spareRest⟩ := List.forall_mem_cons.1 spare
    have ⟨storesNow, storesRest⟩ := List.forall_mem_cons.1 stores
    rw [List.mapM_cons] at written
    obtain ⟨w, first, more⟩ := Outcome.bind_eq_ok.1 written
    obtain ⟨others, following, whole⟩ := Outcome.bind_eq_ok.1 more
    cases whole
    have marks : (e :: rest).filterMap (Edit.mark? d.uuid) =
        (e.mark? d.uuid).toList ++ rest.filterMap (Edit.mark? d.uuid) := by
      rw [List.filterMap_cons]
      cases e.mark? d.uuid <;> rfl
    rw [marks, lastMark_append]
    exact ih (Edit.stores_of_write now spares storesNow first) spareRest storesRest following

namespace Store

theorem apply_eq_ok (applied : s.apply edits = .ok t) : ∃ writes,
    edits.mapM (Edit.write s.space) = .ok writes ∧
      t.space = ChangeSet.applyTo ⟨writes⟩ s.space := by
  obtain ⟨writes, written, committed⟩ := Outcome.bind_eq_ok.1 applied
  exact ⟨writes, written, space_commit committed⟩

theorem stores_of_apply (stores : s.space.Stores d) (spare : ∀ e ∈ edits, e.Spares d.uuid)
    (applied : s.apply edits = .ok t) :
    t.space.Stores (d.inState (lastMark d.state (edits.filterMap (Edit.mark? d.uuid)))) := by
  obtain ⟨writes, written, space⟩ := apply_eq_ok applied
  rw [space]
  exact Edit.stores_of_writes stores spare (fun _ _ _ => stores) written

/-- The request that a group brings is kept if the group writes to other keys after it. -/
theorem stores_of_keep {before after : List Edit}
    (applied : s.apply (before ++ .keep d :: after) = .ok t)
    (apart : ∀ e ∈ after, e.key ≠ d.uuid.text) : t.space.Stores d := by
  obtain ⟨writes, written, space⟩ := apply_eq_ok applied
  rw [List.mapM_append] at written
  obtain ⟨first, -, more⟩ := Outcome.bind_eq_ok.1 written
  obtain ⟨second, kept, whole⟩ := Outcome.bind_eq_ok.1 more
  rw [List.mapM_cons] at kept
  obtain ⟨w, own, more⟩ := Outcome.bind_eq_ok.1 kept
  obtain ⟨others, following, parts⟩ := Outcome.bind_eq_ok.1 more
  cases own
  cases parts
  cases whole
  have kept : Stores ((ChangeSet.applyTo ⟨first⟩ s.space).insert d.uuid.text
      (.ofRecord d.toRecord)) (d.inState d.state) := by
    rw [Stores, requestRecord?_insert]
    exact (if_pos rfl).trans (Value.record?_ofRecord _)
  have unmarked : after.filterMap (Edit.mark? d.uuid) = [] :=
    List.filterMap_eq_nil_iff.2 fun e mem => Edit.mark?_of_key (apart e mem)
  have still := Edit.stores_of_writes kept (fun e mem => .inr (apart e mem))
    (fun e mem same => absurd same (apart e mem)) following
  rw [unmarked] at still
  rw [space, ChangeSet.applyTo, List.foldl_append]
  exact still

theorem stores_of_applyEach {groups : List (List Edit)} (stores : s.space.Stores d)
    (spare : ∀ edits ∈ groups, ∀ e ∈ edits, e.Spares d.uuid) :
    (s.applyEach groups).space.Stores (d.inState (lastMark d.state (s.marks d.uuid groups))) := by
  induction groups generalizing s d with
  | nil => exact stores
  | cons edits rest ih =>
    have ⟨spares, spareRest⟩ := List.forall_mem_cons.1 spare
    rw [applyEach, marks]
    cases applied : s.apply edits with
    | ok t =>
      have marked := stores_of_apply stores spares applied
      have kept := ih marked spareRest
      dsimp only
      rw [lastMark_append]
      exact kept
    | error => exact ih stores spareRest

/-- Whatever the store held before, and whatever it is given besides, a request that was kept is
read back in the state that was written last. -/
theorem request_reads_back {before after : List Edit}
    (applied : s.apply (before ++ .keep d :: after) = .ok t)
    (apart : ∀ e ∈ after, e.key ≠ d.uuid.text) (groups : List (List Edit))
    (spare : ∀ edits ∈ groups, ∀ e ∈ edits, e.Spares d.uuid) :
    (t.applyEach groups).space.ReadsBack (d.inState (lastMark d.state (t.marks d.uuid groups))) :=
  (stores_of_applyEach (stores_of_keep applied apart) spare).readsBack

end Store

/-! ## The groups of a node -/

namespace Participant

def provenanceEdits (context : Context) (now : Timestamp) : List Edit :=
  [.put Key.lastHost (.text context.host), .put Key.lastUser (.text context.user),
    .put Key.lastTimestamp (.text now.storedText)]

def prepareEdits (state : NodeState) (m : Prepare) (result : Cluster) (now : Timestamp) :
    List Edit :=
  [.keep (newRequest state m result now), .put Key.mode (.text Mode.prepared.text),
    .put Key.lastRequest (.text "PREPARE"), .put Key.latest (.text m.uuid.text),
    .put Key.highestVersion (.long m.version), .put Key.count (.long (state.count + 1))] ++
    provenanceEdits m.context now

def closeEdits (state : NodeState) (context : Context) (uuid : Uuid) (version : Nat)
    (closing : Closing) (now : Timestamp) : List Edit :=
  (if closing.target = .committed then [.put Key.currentVersion (.long version)] else []) ++
    [.mark uuid closing.target, .put Key.mode (.text Mode.accepting.text),
      .put Key.lastRequest (.text closing.request), .put Key.count (.long (state.count + 1))] ++
    provenanceEdits context now

theorem apply_prepareEdits (s : Store) (state : NodeState) (m : Prepare) (result : Cluster)
    (now : Timestamp) :
    s.apply (prepareEdits state m result now) = s.commit (prepareWrites state m result now) := rfl

theorem apply_closeEdits {record : Record} {uuid : Uuid}
    (found : s.space.requestRecord? uuid = some record) (state : NodeState) (context : Context)
    (version : Nat) (closing : Closing) (now : Timestamp) :
    s.apply (closeEdits state context uuid version closing now) =
      s.commit (closeWrites state context uuid record version closing now) := by
  by_cases committed : closing.target = .committed <;>
    simp [Store.apply, closeEdits, provenanceEdits, Edit.write, found, committed, closeWrites,
      provenance, ChangeSet.put, ChangeSet.empty]

/-- What a node writes when it closes a request spares every request. -/
theorem spares_of_mem_closeEdits {state : NodeState} {context : Context} {uuid : Uuid}
    {version : Nat} {closing : Closing} {now : Timestamp} (other : Uuid) :
    ∀ e ∈ closeEdits state context uuid version closing now, e.Spares other := by
  have value (key : String) (value : Value) (short : key.length ≠ 36) :
      (Edit.put key value).Spares other := .inr (Uuid.text_ne short).symm
  refine List.forall_mem_append.2 ⟨List.forall_mem_append.2 ⟨?_, ?_⟩, ?_⟩
  · split
    · exact List.forall_mem_singleton.2 (value _ _ (by decide))
    · exact List.forall_mem_nil _
  · simp only [List.forall_mem_cons]
    exact ⟨Edit.spares_mark _ _ _, value _ _ (by decide), value _ _ (by decide),
      value _ _ (by decide), List.forall_mem_nil _⟩
  · simp only [provenanceEdits, List.forall_mem_cons]
    exact ⟨value _ _ (by decide), value _ _ (by decide), value _ _ (by decide),
      List.forall_mem_nil _⟩

/-! ## A request in time, and one too late -/

/-- The last point in time that can be stored, in a second that is counted as sixty. -/
def lastMoment : Timestamp := ⟨9999, 12, 31, 23, 59, 60, 999999999⟩

/-- The first request of a new node. -/
def firstRequest (created : Timestamp) : ChangeDetails :=
  newRequest newState foundingPrepare foundedCluster created

def firstClosing : List (List Edit) :=
  [closeEdits newState foundingCommit.context foundingPrepare.uuid 1 .commit lastMoment]

theorem lastMoment_reads_back : ∃ t,
    Store.empty.commit (prepareWrites newState foundingPrepare foundedCluster lastMoment) = .ok t ∧
    (∀ edits ∈ firstClosing, ∀ e ∈ edits, e.Spares (firstRequest lastMoment).uuid) ∧
    t.marks (firstRequest lastMoment).uuid firstClosing = [.committed] ∧
    (t.applyEach firstClosing).space.request? (firstRequest lastMoment).uuid =
      .ok (some ((firstRequest lastMoment).inState .committed)) := by
  have spare : ∀ edits ∈ firstClosing, ∀ e ∈ edits, e.Spares (firstRequest lastMoment).uuid :=
    List.forall_mem_singleton.2 (spares_of_mem_closeEdits _)
  have apart : ∀ e ∈ (prepareEdits newState foundingPrepare foundedCluster lastMoment).tail,
      e.key ≠ (firstRequest lastMoment).uuid.text := by
    decide
  have parts : prepareEdits newState foundingPrepare foundedCluster lastMoment =
      [] ++ .keep (firstRequest lastMoment) ::
        (prepareEdits newState foundingPrepare foundedCluster lastMoment).tail := rfl
  have applied := apply_prepareEdits .empty newState foundingPrepare foundedCluster lastMoment
  rw [parts] at applied
  have marks : ∀ t, Store.empty.commit
      (prepareWrites newState foundingPrepare foundedCluster lastMoment) = .ok t →
      t.marks (firstRequest lastMoment).uuid firstClosing = [.committed] := by
    rintro t ⟨⟩
    rfl
  obtain ⟨t, committed⟩ : ∃ t, Store.empty.commit
      (prepareWrites newState foundingPrepare foundedCluster lastMoment) = .ok t := ⟨_, rfl⟩
  have reads := Store.request_reads_back (applied.trans committed) apart firstClosing spare
  rw [marks t committed] at reads
  exact ⟨t, committed, spare, marks t committed, reads.details rfl (by decide)⟩

/-- A moment later the year has five digits, and the request is not read back. -/
theorem late_not_read_back : ∃ t,
    (firstRequest ⟨10000, 1, 1, 0, 0, 0, 0⟩).resultHash =
      (firstRequest ⟨10000, 1, 1, 0, 0, 0, 0⟩).result.hash ∧
    Store.empty.apply [.keep (firstRequest ⟨10000, 1, 1, 0, 0, 0, 0⟩)] = .ok t ∧
    (t.space.request? foundingPrepare.uuid).mapError StateFault.toError =
      .error (.corrupted "invalid timestamp +10000-01-01T00:00:00+00:00") := by
  refine ⟨_, rfl, rfl, ?_⟩
  have stores := Store.stores_of_keep
    (show Store.empty.apply ([] ++ .keep (firstRequest ⟨10000, 1, 1, 0, 0, 0, 0⟩) :: []) = .ok _
      from rfl) (List.forall_mem_nil _)
  have read := stores.readsBack.untimed rfl (by decide)
  rw [show foundingPrepare.uuid = (firstRequest ⟨10000, 1, 1, 0, 0, 0, 0⟩).uuid from rfl, read]
  rfl

end Participant
end Reconfig
