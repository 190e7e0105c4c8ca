/-
Reading fields from a document in canonical form.

The members of a canonical object are the entries of a dictionary, so no name
occurs twice and a field is found by one lookup, wherever it was written.
-/
import Reconfig.Json.Canonical
import Reconfig.Json.Fields
import Reconfig.Topology.Wire

namespace Reconfig
namespace Dict

variable {α : Type} {β : Type}

/-- A key has no entry but the one that its lookup finds. -/
theorem filter_key (d : Dict α) (key : String) :
    d.entries.filter (·.1 == key) = (d.get? key).toList.map (key, ·) := by
  obtain ⟨entries, sorted⟩ := d
  simp only [get?]
  induction entries with
  | nil => rfl
  | cons head rest ih =>
    obtain ⟨below, tail⟩ := List.pairwise_cons.1 sorted
    by_cases same : head.1 = key
    · have none : rest.filter (·.1 == key) = [] := by
        rw [List.filter_eq_nil_iff]
        intro entry mem equal
        have above := below entry mem
        rw [same, eq_of_beq equal] at above
        exact String.lt_irrefl _ above
      rw [List.filter_cons_of_pos (by simpa using same), none, lookup_cons_ite, if_pos same.symm]
      simp [← same]
    · rw [List.filter_cons_of_neg (by simpa using same), ih tail, lookup_cons_ite,
        if_neg (Ne.symm same)]

theorem mem_entries_iff {d : Dict α} {key : String} {value : α} :
    (key, value) ∈ d.entries ↔ d.get? key = some value := by
  have own : (key, value) ∈ d.entries ↔ (key, value) ∈ d.entries.filter (·.1 == key) := by
    simp
  rw [own, filter_key]
  simp [eq_comm]

theorem mem_keys_iff {d : Dict α} {key : String} : key ∈ d.keys ↔ (d.get? key).isSome = true := by
  rw [keys, List.mem_map, Option.isSome_iff_exists]
  constructor
  · rintro ⟨⟨_, value⟩, mem, rfl⟩
    exact ⟨value, mem_entries_iff.1 mem⟩
  · rintro ⟨value, found⟩
    exact ⟨(key, value), mem_entries_iff.2 found, rfl⟩

theorem mem_keys_insert {d : Dict α} {key other : String} {value : α} :
    other ∈ (d.insert key value).keys ↔ other = key ∨ other ∈ d.keys := by
  rw [mem_keys_iff, mem_keys_iff, get?_insert]
  split <;> simp [*]

theorem countP_key_le_one (d : Dict α) (key : String) :
    d.entries.countP (·.1 == key) ≤ 1 := by
  rw [List.countP_eq_length_filter, filter_key]
  cases d.get? key <;> simp

theorem mem_foldl_insert {entry : String × α} (rest : List (String × α)) (d : Dict α)
    (mem : entry ∈ (rest.foldl (fun d entry => d.insert entry.1 entry.2) d).entries) :
    entry ∈ d.entries ∨ entry ∈ rest := by
  induction rest generalizing d with
  | nil => exact .inl mem
  | cons head rest ih =>
    rcases ih _ mem with mem | mem
    · rcases mem_insertEntry mem with rfl | mem
      · exact .inr List.mem_cons_self
      · exact .inl mem
    · exact .inr (List.mem_cons_of_mem _ mem)

theorem mem_ofList {entries : List (String × α)} {entry : String × α}
    (mem : entry ∈ (ofList entries).entries) : entry ∈ entries := by
  rcases mem_foldl_insert entries empty mem with mem | mem
  · cases mem
  · exact mem

theorem mem_keys_foldl_insert {rest : List (String × α)} {d : Dict α} {key : String} :
    key ∈ (rest.foldl (fun d entry => d.insert entry.1 entry.2) d).keys ↔
      key ∈ d.keys ∨ ∃ entry ∈ rest, entry.1 = key := by
  induction rest generalizing d with
  | nil => simp
  | cons head rest ih =>
    rw [List.foldl_cons, ih, mem_keys_insert]
    simp [eq_comm, or_assoc, or_left_comm]

theorem mem_keys_ofList {entries : List (String × α)} {key : String} :
    key ∈ (ofList entries).keys ↔ ∃ entry ∈ entries, entry.1 = key := by
  rw [ofList, mem_keys_foldl_insert]
  simp [empty, keys]

end Dict

namespace Json

/-- The dictionary of the members of a canonical object. -/
def canonicalDict (members : List (String × Json)) : Dict Json :=
  Dict.ofList (canonicalMembers members)

theorem canonical_obj (members : List (String × Json)) :
    (Json.obj members).canonical = .obj (canonicalDict members).entries := by
  rw [canonical, canonicalDict]

@[simp] theorem canonical_ofNat (n : Nat) : (Json.ofNat n).canonical = .ofNat n := by
  simp [Json.ofNat, canonical]

theorem fields?_entries (names : List String) (d : Dict Json) :
    fields? names (.obj d.entries) = some ⟨true, d.get?⟩ := by
  have single : (names.any fun name => decide (1 < d.entries.countP (·.1 == name))) = false := by
    rw [List.any_eq_false]
    intro name _
    have := d.countP_key_le_one name
    simpa using this
  simp only [fields?, single, Bool.false_eq_true, if_false]
  rfl

theorem tagged?_entries {tag : String} {d : Dict Json} (value : Json)
    (found : d.get? tag = some value) :
    tagged? tag (.obj d.entries) = some (value, .obj (d.erase tag).entries) := by
  have : d.entries.filter (·.1 == tag) = [(tag, value)] := by
    simp [Dict.filter_key, found]
  simp only [tagged?, this]
  rfl

theorem adjacent?_entries {tag content : String} {d : Dict Json} (value : Json)
    (found : d.get? tag = some value) :
    adjacent? tag content (.obj d.entries) = some (value, d.get? content) := by
  have first : d.entries.filter (·.1 == tag) = [(tag, value)] := by
    simp [Dict.filter_key, found]
  simp only [adjacent?, first, Dict.filter_key d content]
  cases d.get? content <;> rfl

theorem listOf?_map {α : Type} {read : Json → Option α} {write : α → Json} {items : List α}
    (back : ∀ a ∈ items, read (write a) = some a) :
    listOf? read (.arr (items.map write)) = some items := by
  have each : (items.map write).mapM read = some items := by
    induction items with
    | nil => rfl
    | cons a rest ih =>
      have tail := ih fun b mem => back b (List.mem_cons_of_mem a mem)
      simp [List.mapM_cons, back a List.mem_cons_self, tail]
  simp [listOf?, asArray?, each]

theorem dictOf?_map {α : Type} {read : Json → Option α} {write : α → Json} (d : Dict α)
    (back : ∀ a, read (write a) = some a) :
    dictOf? read (.obj (d.entries.map fun entry => (entry.1, write entry.2))) = some d := by
  have each (entries : List (String × α)) :
      (entries.map fun entry => (entry.1, write entry.2)).mapM
        (fun m => (read m.2).map (m.1, ·)) = some entries := by
    induction entries with
    | nil => rfl
    | cons entry rest ih => simp [List.mapM_cons, back, ih]
  simp [dictOf?, asObject?, each]

theorem canonical_dict_toJson {α : Type} (f : α → Json) (d : Dict α) :
    (d.toJson f).canonical =
      .obj (d.entries.map fun entry => (entry.1, (f entry.2).canonical)) := by
  have mapped : d.entries.map (fun entry => (entry.1, (f entry.2).canonical)) =
      (d.mapValues fun _ a => (f a).canonical).entries := rfl
  rw [Dict.toJson, canonical, canonicalMembers_eq_map, List.map_map]
  show Json.obj
    (Dict.ofList (d.entries.map fun entry => (entry.1, (f entry.2).canonical))).entries = _
  rw [mapped, Dict.ofList_entries]

theorem itemsDepth_le_iff {items : List Json} {n : Nat} :
    itemsDepth items ≤ n ↔ ∀ item ∈ items, item.depth ≤ n := by
  induction items with
  | nil => simp [itemsDepth]
  | cons item rest ih => rw [itemsDepth, Nat.max_le, ih, List.forall_mem_cons]

theorem membersDepth_le_iff {members : List (String × Json)} {n : Nat} :
    membersDepth members ≤ n ↔ ∀ m ∈ members, m.2.depth ≤ n := by
  induction members with
  | nil => simp [membersDepth]
  | cons m rest ih => rw [membersDepth, Nat.max_le, ih, List.forall_mem_cons]

theorem depth_le_itemsDepth {item : Json} {items : List Json} (mem : item ∈ items) :
    item.depth ≤ itemsDepth items :=
  itemsDepth_le_iff.1 (Nat.le_refl _) item mem

/-- A member lies less deep than the object that holds it. -/
theorem depth_lt_of_get? {name : String} {value : Json} {d : Dict Json}
    (found : d.get? name = some value) : value.depth < (Json.obj d.entries).depth := by
  exact Nat.lt_succ_of_le
    (membersDepth_le_iff.1 (Nat.le_refl _) (name, value) (Dict.mem_entries_iff.2 found))

theorem canonicalMembers_self {members : List (String × Json)}
    (each : ∀ m ∈ members, m.2.canonical = m.2) : canonicalMembers members = members := by
  rw [canonicalMembers_eq_map]
  refine (List.map_congr_left fun m mem => ?_).trans (List.map_id members)
  rw [each m mem]
  rfl

mutual

/-- A canonical document stays as it is. -/
theorem canonical_canonical (j : Json) : j.canonical.canonical = j.canonical := by
  match j with
  | .null | .bool _ | .int _ | .float _ | .str _ => rfl
  | .arr items =>
    rw [canonical, canonical, canonicalItems_canonicalItems items]
  | .obj members =>
    have each : ∀ m ∈ (Dict.ofList (canonicalMembers members)).entries, m.2.canonical = m.2 :=
      fun m mem => canonical_of_mem members m (Dict.mem_ofList mem)
    rw [canonical, canonical, canonicalMembers_self each, Dict.ofList_entries]

theorem canonicalItems_canonicalItems (items : List Json) :
    canonicalItems (canonicalItems items) = canonicalItems items := by
  match items with
  | [] => rfl
  | item :: rest =>
    rw [canonicalItems, canonicalItems, canonical_canonical item,
      canonicalItems_canonicalItems rest]

theorem canonical_of_mem (members : List (String × Json)) (m : String × Json)
    (mem : m ∈ canonicalMembers members) : m.2.canonical = m.2 := by
  match members with
  | [] => cases mem
  | (name, value) :: rest =>
    rcases List.mem_cons.1 mem with rfl | mem
    · exact canonical_canonical value
    · exact canonical_of_mem rest m mem

end

end Json
end Reconfig
