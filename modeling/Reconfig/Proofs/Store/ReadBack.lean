/-
Change-sets that are read back as they were written.

The values of a store have one form each: the entries of a record are in order and a
document is canonical. So a change-set is the only one with its text, and all that can
keep it from being read back is the depth of its documents.
-/
import Reconfig.Proofs.Json.Canonical
import Reconfig.Proofs.Json.RoundTrip
import Reconfig.Store.ChangeSet

namespace Reconfig
namespace Json

theorem plainItems_iff {items : List Json} : PlainItems items ↔ ∀ item ∈ items, item.Plain := by
  induction items with
  | nil => simp [PlainItems]
  | cons item rest ih => simp [PlainItems, ih]

theorem plainMembers_iff {members : List (String × Json)} :
    PlainMembers members ↔ ∀ m ∈ members, m.2.Plain := by
  induction members with
  | nil => simp [PlainMembers]
  | cons m rest ih => simp [PlainMembers, ih]

theorem plain_ofNat {n : Nat} (fits : n < 2 ^ 64) : (ofNat n).Plain := by
  refine ⟨?_, ?_⟩
  · show -(2 ^ 63) ≤ (n : Int)
    omega
  · show (n : Int) ≤ 2 ^ 64 - 1
    omega

mutual

theorem plain_canonical (j : Json) (plain : j.Plain) : j.canonical.Plain := by
  match j with
  | .null | .bool _ | .int _ | .float _ | .str _ => exact plain
  | .arr items =>
    rw [canonical]
    exact plainItems_canonicalItems items plain
  | .obj members =>
    rw [canonical]
    exact plainMembers_iff.2 fun m mem =>
      plain_of_mem_canonicalMembers members plain m (Dict.mem_ofList mem)

theorem plainItems_canonicalItems (items : List Json) (plain : PlainItems items) :
    PlainItems (canonicalItems items) := by
  match items with
  | [] => exact plain
  | item :: rest =>
    exact ⟨plain_canonical item plain.1, plainItems_canonicalItems rest plain.2⟩

theorem plain_of_mem_canonicalMembers (members : List (String × Json))
    (plain : PlainMembers members) (m : String × Json) (mem : m ∈ canonicalMembers members) :
    m.2.Plain := by
  match members with
  | [] => cases mem
  | (name, value) :: rest =>
    rcases List.mem_cons.1 mem with rfl | mem
    · exact plain_canonical value plain.1
    · exact plain_of_mem_canonicalMembers rest plain.2 m mem

end

end Json

namespace Value

mutual

/-- The value is in the form in which it is stored. -/
def Stored : Value → Prop
  | .text _ => True
  | .long n => n < Text.word64
  | .object entries => (entries.Pairwise fun a b => a.1 < b.1) ∧ StoredEntries entries
  | .external document => document.canonical = document ∧ document.Plain

def StoredEntries : List (String × Value) → Prop
  | [] => True
  | (_, value) :: rest => value.Stored ∧ StoredEntries rest

end

theorem storedEntries_iff {entries : List (String × Value)} :
    StoredEntries entries ↔ ∀ e ∈ entries, e.2.Stored := by
  induction entries with
  | nil => simp [StoredEntries]
  | cons e rest ih => rw [StoredEntries, ih, List.forall_mem_cons]

theorem stored_ofDocument {j : Json} (plain : j.Plain) : (ofDocument j).Stored :=
  ⟨j.canonical_canonical, j.plain_canonical plain⟩

theorem stored_ofRecord {r : Record} (each : ∀ e ∈ r.entries, e.2.Stored) :
    (ofRecord r).Stored :=
  ⟨r.sorted, storedEntries_iff.2 each⟩

theorem entriesJson_eq_map (entries : List (String × Value)) :
    entriesJson entries = entries.map fun e => (e.1, e.2.toJson) := by
  induction entries with
  | nil => rfl
  | cons e rest ih => rw [entriesJson, ih, List.map_cons]

theorem depth_text (s : String) : (Value.text s).toJson.depth = 1 := rfl

theorem depth_long (n : Nat) : (Value.long n).toJson.depth = 1 := rfl

theorem depth_object (entries : List (String × Value)) :
    (Value.object entries).toJson.depth = Json.membersDepth (entriesJson entries) + 3 := by
  simp [toJson, Json.depth, Json.membersDepth]

theorem depth_external (document : Json) :
    (Value.external document).toJson.depth = document.depth + 1 := by
  simp [toJson, Json.depth, Json.membersDepth]

theorem depth_ofRecord_le_iff {r : Record} {n : Nat} :
    (ofRecord r).toJson.depth ≤ n + 3 ↔ ∀ e ∈ r.entries, e.2.toJson.depth ≤ n := by
  rw [ofRecord, depth_object, Nat.add_le_add_iff_right, Json.membersDepth_le_iff,
    entriesJson_eq_map, List.forall_mem_map]

theorem adjacent?_kind (kind : String) (content : Json) :
    Json.adjacent? "kind" "value" (.obj [("kind", .str kind), ("value", content)]) =
      some (.str kind, some content) := by
  simp [Json.adjacent?]

mutual

theorem plain_toJson (v : Value) (stored : v.Stored) : v.toJson.Plain := by
  match v with
  | .text s => exact ⟨trivial, trivial, trivial⟩
  | .long n => exact ⟨trivial, Json.plain_ofNat stored, trivial⟩
  | .object entries =>
    exact ⟨trivial, ⟨plainMembers_entriesJson entries stored.2, trivial⟩, trivial⟩
  | .external document => exact ⟨trivial, stored.2, trivial⟩

theorem plainMembers_entriesJson (entries : List (String × Value))
    (stored : StoredEntries entries) : Json.PlainMembers (entriesJson entries) := by
  match entries with
  | [] => exact trivial
  | (_, value) :: rest =>
    exact ⟨plain_toJson value stored.1, plainMembers_entriesJson rest stored.2⟩

end

mutual

/-- A stored value is read back from its document. -/
theorem read?_toJson (v : Value) (stored : v.Stored) {fuel : Nat}
    (enough : v.toJson.depth < fuel) : read? fuel v.toJson = some v := by
  obtain ⟨fuel, rfl⟩ : ∃ n, fuel = n + 1 := ⟨fuel - 1, by omega⟩
  match v with
  | .text s =>
    rw [toJson, read?, adjacent?_kind]
    rfl
  | .long n =>
    have small : n < Text.word64 := stored
    rw [toJson, read?, adjacent?_kind]
    simp [Json.variantName?, Json.asWord64?, Json.asNat?, Json.ofNat, small]
  | .object entries =>
    rw [depth_object] at enough
    have each : (entriesJson entries).mapM (fun m => (read? fuel m.2).map (m.1, ·)) = _ :=
      mapM_entriesJson entries stored.2 (by omega)
    have same : ofRecord (Dict.ofList entries) = .object entries := by
      rw [ofRecord, Dict.ofList_entries ⟨entries, stored.1⟩]
    rw [toJson, read?, adjacent?_kind]
    simp [Json.variantName?, Json.fields?, Json.Fields.required?, Json.dictOf?, Json.asObject?,
      each, same]
  | .external document =>
    rw [toJson, read?, adjacent?_kind]
    simp [Json.variantName?, ofDocument, stored.1]

theorem mapM_entriesJson (entries : List (String × Value)) (stored : StoredEntries entries)
    {fuel : Nat} (enough : Json.membersDepth (entriesJson entries) < fuel) :
    (entriesJson entries).mapM (fun m => (read? fuel m.2).map (m.1, ·)) = some entries := by
  match entries with
  | [] => rfl
  | (key, value) :: rest =>
    rw [entriesJson, Json.membersDepth] at enough
    have first : read? fuel value.toJson = _ := read?_toJson value stored.1 (by omega)
    have others : (entriesJson rest).mapM (fun m => (read? fuel m.2).map (m.1, ·)) = _ :=
      mapM_entriesJson rest stored.2 (by omega)
    simp [entriesJson, List.mapM_cons, first, others]

end

theorem ofJson?_toJson {v : Value} (stored : v.Stored) : ofJson? v.toJson = some v :=
  read?_toJson v stored (Nat.lt_succ_self _)

end Value

namespace ChangeSet

/-- Every value is in the form in which it is stored. -/
def Stored (c : ChangeSet) : Prop := ∀ w ∈ c.writes, w.value.Stored

/-- The change-set is read back from its text. -/
def ReadsBack (c : ChangeSet) : Prop :=
  (Json.ofBytes? c.toJson.bytes).bind ofJson? = some c

theorem plain_toJson {c : ChangeSet} (stored : c.Stored) : c.toJson.Plain := by
  refine ⟨Json.plainItems_iff.2 fun item mem => ?_, trivial⟩
  obtain ⟨w, written, rfl⟩ := List.mem_map.1 mem
  exact ⟨trivial, w.value.plain_toJson (stored w written), trivial⟩

theorem depth_toJson_le_iff {c : ChangeSet} {n : Nat} :
    c.toJson.depth ≤ n + 3 ↔ ∀ w ∈ c.writes, w.value.toJson.depth ≤ n := by
  have deep : c.toJson.depth = Json.itemsDepth (c.writes.map writeJson) + 2 := by
    simp [toJson, Json.depth, Json.membersDepth]
  have write : ∀ w : Write, (writeJson w).depth = w.value.toJson.depth + 1 := by
    simp [writeJson, Json.depth, Json.membersDepth]
  rw [deep, show n + 3 = n + 1 + 2 from rfl, Nat.add_le_add_iff_right, Json.itemsDepth_le_iff,
    List.forall_mem_map]
  simp only [write, Nat.add_le_add_iff_right]

theorem writeOfJson?_writeJson {w : Write} (stored : w.value.Stored) :
    writeOfJson? (writeJson w) = some w := by
  have back := Value.ofJson?_toJson stored
  simp [writeOfJson?, writeJson, Json.fields?, Json.Fields.required?, Json.asString?,
    Dict.lookup_cons_ite, back]

theorem ofJson?_toJson {c : ChangeSet} (stored : c.Stored) : ofJson? c.toJson = some c := by
  have back : Json.listOf? writeOfJson? (.arr (c.writes.map writeJson)) = some c.writes :=
    Json.listOf?_map fun w mem => writeOfJson?_writeJson (stored w mem)
  simp [ofJson?, toJson, Json.fields?, Json.Fields.required?, back]

/-- Only its depth keeps a change-set from being read back. -/
theorem ofBytes?_toJson {c : ChangeSet} (stored : c.Stored) :
    (Json.ofBytes? c.toJson.bytes).bind ofJson? =
      if c.toJson.depth ≤ Json.depthLimit then some c else none := by
  rw [Json.ofBytes?_bytes (plain_toJson stored)]
  by_cases fits : c.toJson.depth ≤ Json.depthLimit
  · rw [if_pos fits, if_pos fits, Option.bind_some, ofJson?_toJson stored]
  · rw [if_neg fits, if_neg fits, Option.bind_none]

theorem readsBack_iff {c : ChangeSet} (stored : c.Stored) :
    c.ReadsBack ↔ c.toJson.depth ≤ Json.depthLimit := by
  rw [ReadsBack, ofBytes?_toJson stored]
  by_cases fits : c.toJson.depth ≤ Json.depthLimit
  · simp [fits]
  · simp [fits]

end ChangeSet
end Reconfig
