/-
How long the change-sets of messages are.

To close a request takes no longer change-set than to make it, if the same sender does both. Nothing
but the time, the count and the names of states and messages can be longer, by sixteen bytes
together, and the identity of the newest request is not written again.
-/
import Reconfig.Proofs.Json.Size
import Reconfig.Proofs.Participant.Step
import Reconfig.Proofs.Store.ReadBack
import Reconfig.Proofs.Time.StoredText

namespace Reconfig

/-! ## Times -/

namespace Timestamp

open Json

theorem narrow_padded {width n : Nat} : ∀ c ∈ padded width n, Narrow c :=
  fun _ mem => narrow_of_isDigit (isDigit_of_mem_padded mem)

theorem narrow_yearChars (year : Int) : ∀ c ∈ yearChars year, Narrow c := by
  unfold yearChars
  split
  · exact narrow_padded
  · refine List.forall_mem_cons.2 ⟨?_, narrow_padded⟩
    split <;> decide

theorem narrow_fractionChars (nanos : Nat) : ∀ c ∈ fractionChars nanos, Narrow c := by
  have point {width n : Nat} : ∀ c ∈ '.' :: padded width n, Narrow c :=
    List.forall_mem_cons.2 ⟨by decide, narrow_padded⟩
  unfold fractionChars
  split
  · exact nofun
  · split
    · exact point
    · split
      · exact point
      · exact point

theorem narrow_storedText (t : Timestamp) : ∀ c ∈ t.storedText.toList, Narrow c := by
  have marked {mark : Char} (narrow : Narrow mark) {n : Nat} :
      ∀ c ∈ mark :: padded 2 n, Narrow c := List.forall_mem_cons.2 ⟨narrow, narrow_padded⟩
  have zone : ∀ c ∈ ['+', '0', '0', ':', '0', '0'], Narrow c := by
    simp only [List.forall_mem_cons, List.not_mem_nil, false_imp_iff, implies_true, and_true]
    decide
  rw [storedText, String.toList_ofList, chars]
  simp only [List.forall_mem_append]
  exact ⟨⟨⟨⟨⟨⟨⟨narrow_yearChars _, marked (by decide)⟩, marked (by decide)⟩,
    marked (by decide)⟩, marked (by decide)⟩, marked (by decide)⟩, narrow_fractionChars _⟩,
    zone⟩

theorem length_fractionChars {nanos : Nat} (bound : nanos < 10 ^ 9) :
    (fractionChars nanos).length ∈ [0, 4, 7, 10] := by
  unfold fractionChars
  split
  · decide
  · split
    · rw [List.length_cons, length_padded (by decide) (by omega)]
      decide
    · split
      · rw [List.length_cons, length_padded (by decide) (by omega)]
        decide
      · rw [List.length_cons, length_padded (by decide) bound]
        decide

/-- The fraction of the second makes all the difference. -/
theorem size_storedText {t : Timestamp} (storable : t.Storable) :
    (str t.storedText).size ∈ [27, 31, 34, 37] := by
  have two : 0 < 2 := by decide
  have ⟨month, day⟩ := month_bounds storable
  have ⟨yearLow, yearHigh⟩ := storable.year
  have year : t.year.toNat < 10 ^ 4 := by omega
  have hour : t.hour < 10 ^ 2 := Nat.lt_trans storable.hour (by decide)
  have minute : t.minute < 10 ^ 2 := Nat.lt_trans storable.minute (by decide)
  have second : t.second < 10 ^ 2 := Nat.lt_of_le_of_lt storable.second (by decide)
  have fraction := length_fractionChars storable.nanos
  rw [size_str_of_narrow t.narrow_storedText, storedText, String.toList_ofList, chars,
    yearChars_of_storable storable]
  simp only [List.length_append, List.length_cons, List.length_nil, length_padded two month,
    length_padded two day, length_padded two hour, length_padded two minute,
    length_padded two second, length_padded (by decide : 0 < 4) year]
  simp only [List.mem_cons, List.not_mem_nil, or_false] at fraction ⊢
  omega

end Timestamp

/-! ## Values -/

namespace Dict

variable {α : Type} {d : Dict α} {key : String} {old : α}

theorem sum_insertEntry {entries : List (String × α)}
    (sorted : entries.Pairwise fun a b => a.1 < b.1) (found : entries.lookup key = some old)
    (value : α) (f : String × α → Nat) :
    ((insertEntry key value entries).map f).sum + f (key, old) =
      (entries.map f).sum + f (key, value) := by
  induction entries with
  | nil => cases found
  | cons entry rest ih =>
    obtain ⟨above, sorted⟩ := List.pairwise_cons.1 sorted
    rw [lookup_cons_ite] at found
    unfold insertEntry
    split
    · rename_i below
      -- a key below all others is not in the dictionary
      have other : key ≠ entry.1 := by
        rintro rfl
        exact String.lt_irrefl _ below
      rw [if_neg other, lookup_eq_none_of_lt fun e mem => String.lt_trans below (above e mem)]
        at found
      cases found
    · split
      · rename_i same
        rw [if_pos same] at found
        obtain rfl := Option.some.inj found
        rw [List.map_cons, List.sum_cons, List.map_cons, List.sum_cons,
          show (key, entry.2) = entry by rw [same]]
        omega
      · rename_i other
        rw [if_neg other] at found
        have inRest := ih sorted found
        rw [List.map_cons, List.sum_cons, List.map_cons, List.sum_cons]
        omega

/-- A value in place of another one. -/
theorem sum_insert (found : d.get? key = some old) (value : α) (f : String × α → Nat) :
    ((d.insert key value).entries.map f).sum + f (key, old) =
      (d.entries.map f).sum + f (key, value) :=
  sum_insertEntry d.sorted found value f

theorem entries_ne_nil (found : d.get? key = some old) : d.entries ≠ [] := by
  intro none
  rw [get?, none] at found
  cases found

end Dict

namespace Value

open Json

theorem size_text (s : String) : (text s).toJson.size = (str s).size + 26 := by
  rw [toJson, size_obj (by simp)]
  simp only [List.map_cons, List.map_nil, List.sum_cons, List.sum_nil,
    show (str "kind").size = 6 from rfl, show (str "string").size = 8 from rfl,
    show (str "value").size = 7 from rfl]
  omega

theorem size_long (n : Nat) : (long n).toJson.size = (Text.digits n).length + 24 := by
  rw [toJson, size_obj (by simp)]
  simp only [List.map_cons, List.map_nil, List.sum_cons, List.sum_nil, size_ofNat,
    show (str "kind").size = 6 from rfl, show (str "long").size = 6 from rfl,
    show (str "value").size = 7 from rfl]
  omega

theorem size_ofRecord {r : Record} (filled : r.entries ≠ []) : (ofRecord r).toJson.size =
    (r.entries.map fun entry => (str entry.1).size + entry.2.toJson.size + 2).sum + 39 := by
  have inside : entriesJson r.entries ≠ [] := by
    rw [entriesJson_eq_map]
    simpa using filled
  rw [ofRecord, toJson, size_obj (by simp)]
  simp only [List.map_cons, List.map_nil, List.sum_cons, List.sum_nil,
    size_obj (List.cons_ne_nil _ _), size_obj inside, show (str "kind").size = 6 from rfl,
    show (str "object").size = 8 from rfl, show (str "value").size = 7 from rfl,
    show (str "entries").size = 9 from rfl]
  rw [entriesJson_eq_map, List.map_map]
  simp only [Function.comp_def]
  omega

/-- A record with another value under one of its keys. -/
theorem size_ofRecord_insert {r : Record} {key : String} {old : Value}
    (found : r.get? key = some old) (value : Value) :
    (ofRecord (r.insert key value)).toJson.size + old.toJson.size =
      (ofRecord r).toJson.size + value.toJson.size := by
  have replaced := Dict.sum_insert found value
    fun entry => (str entry.1).size + entry.2.toJson.size + 2
  dsimp only at replaced
  rw [size_ofRecord (Dict.entries_ne_nil (r.get?_insert_self key value)),
    size_ofRecord (Dict.entries_ne_nil found)]
  omega

end Value

/-! ## Change-sets -/

namespace ChangeSet

open Json

theorem size_writeJson (w : Write) :
    (writeJson w).size = (str w.key).size + w.value.toJson.size + 17 := by
  rw [writeJson, size_obj (by simp)]
  simp only [List.map_cons, List.map_nil, List.sum_cons, List.sum_nil,
    show (str "key").size = 5 from rfl, show (str "value").size = 7 from rfl]
  omega

/-- The bytes of the writes, each with the comma before it. -/
def room (c : ChangeSet) : Nat := (c.writes.map fun w => (writeJson w).size + 1).sum

theorem room_empty : empty.room = 0 := rfl

theorem room_put (c : ChangeSet) (key : String) (value : Value) :
    (c.put key value).room = c.room + ((str key).size + value.toJson.size + 18) := by
  simp only [room, put, List.map_append, List.sum_append, List.map_cons, List.map_nil,
    List.sum_cons, List.sum_nil, size_writeJson, Nat.add_zero]

theorem size_toJson {c : ChangeSet} (filled : c.writes ≠ []) : c.toJson.size = c.room + 9 := by
  have items : c.writes.map writeJson ≠ [] := by simpa using filled
  rw [toJson, size_obj (by simp), room]
  simp only [List.map_cons, List.map_nil, List.sum_cons, List.sum_nil, size_arr items,
    show (str "ops").size = 5 from rfl, List.map_map, Function.comp_def]
  omega

end ChangeSet

namespace Participant

open Json

variable {state state' : NodeState} {m : Prepare} {result : Cluster} {now later : Timestamp}
  {context context' : Context}

theorem Closing.size_le (closing : Closing) :
    (str closing.target.text).size ≤ (str ChangeState.prepared.text).size + 3 ∧
      (str closing.request).size ≤ (str "PREPARE").size + 1 := by
  have target (state : ChangeState) :
      (str state.text).size ≤ (str ChangeState.prepared.text).size + 3 := by
    cases state <;> decide
  refine ⟨target _, ?_⟩
  cases closing with
  | commit => decide
  | rollback => decide
  | force target => exact (by decide : (str "FORCE").size ≤ (str "PREPARE").size + 1)

theorem room_provenance (c : ChangeSet) (context : Context) (now : Timestamp) :
    (provenance c context now).room = c.room + (provenance .empty context now).room := by
  simp only [provenance, ChangeSet.room_put, ChangeSet.room_empty]
  omega

/-- The same sender, at two times. -/
theorem room_provenance_le (host : context.host = context'.host)
    (user : context.user = context'.user) (storable : now.Storable) (storable' : later.Storable) :
    (provenance .empty context later).room ≤ (provenance .empty context' now).room + 10 := by
  have before := Timestamp.size_storedText storable
  have after := Timestamp.size_storedText storable'
  simp only [List.mem_cons, List.not_mem_nil, or_false] at before after
  simp only [provenance, ChangeSet.room_put, ChangeSet.room_empty, Value.size_text, host, user]
  omega

/-- To close a request takes no more bytes than it took to make it, if the same one does both. -/
theorem size_closeWrites_le (count : state'.count = state.count + 1)
    (host : context.host = m.context.host) (user : context.user = m.context.user)
    (storable : now.Storable) (storable' : later.Storable) (closing : Closing) :
    (closeWrites state' context m.uuid (newRequest state m result now).toRecord m.version closing
      later).toJson.size ≤ (prepareWrites state m result now).toJson.size := by
  have stored : (newRequest state m result now).toRecord.get? RequestKey.state =
      some (.text ChangeState.prepared.text) := by
    rw [ChangeDetails.get?_toRecord]
    rfl
  have record := Value.size_ofRecord_insert stored (.text closing.target.text)
  have sender := room_provenance_le host user storable storable'
  have digits := Text.length_digits_succ_le (state.count + 1)
  have mode : (str Mode.accepting.text).size = (str Mode.prepared.text).size + 1 := by decide
  have key : (str Key.currentVersion).size = (str Key.highestVersion).size := by decide
  obtain ⟨target, request⟩ := closing.size_le
  -- the newest version was written before, whether the change is committed now or not
  have version : (if closing.target = .committed
      then ChangeSet.empty.put Key.currentVersion (.long m.version) else ChangeSet.empty).room ≤
        (str Key.highestVersion).size + (Value.long m.version).toJson.size + 18 := by
    split
    · exact Nat.le_of_eq (by rw [ChangeSet.room_put, ChangeSet.room_empty, key, Nat.zero_add])
    · exact Nat.zero_le _
  rw [ChangeSet.size_toJson (by simp [closeWrites, provenance, ChangeSet.put]),
    ChangeSet.size_toJson (by simp [prepareWrites, provenance, ChangeSet.put]),
    closeWrites, prepareWrites, room_provenance, room_provenance (ChangeSet.put _ _ _)]
  simp only [ChangeSet.room_put, ChangeSet.room_empty, Value.size_text, Value.size_long, count]
    at record version ⊢
  omega

end Participant
end Reconfig
