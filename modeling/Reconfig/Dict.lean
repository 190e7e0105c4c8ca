/-
Dictionaries with text keys, kept in increasing key order.

The order makes the list of entries canonical: two dictionaries that answer
every lookup alike are equal, so restoring an entry restores the dictionary.
-/
namespace Reconfig

/-- The order is that of the keys' code points, which is also the order of
their encoded bytes. -/
structure Dict (α : Type) where
  entries : List (String × α)
  sorted : entries.Pairwise fun a b => a.1 < b.1
deriving DecidableEq

namespace Dict

variable {α : Type} {β : Type}

/-- Replaces the entry of the key, or puts a new one where the order asks. -/
def insertEntry (key : String) (value : α) : List (String × α) → List (String × α)
  | [] => [(key, value)]
  | entry :: rest =>
    if key < entry.1 then (key, value) :: entry :: rest
    else if key = entry.1 then (key, value) :: rest
    else entry :: insertEntry key value rest

theorem mem_insertEntry {key : String} {value : α} {entries : List (String × α)}
    {entry : String × α} (h : entry ∈ insertEntry key value entries) :
    entry = (key, value) ∨ entry ∈ entries := by
  induction entries with
  | nil => simpa [insertEntry] using h
  | cons head rest ih =>
    unfold insertEntry at h
    split at h
    · simpa using h
    · split at h
      · rcases List.mem_cons.1 h with h | h
        · exact .inl h
        · exact .inr (List.mem_cons_of_mem _ h)
      · rcases List.mem_cons.1 h with h | h
        · exact .inr (h ▸ List.mem_cons_self)
        · exact (ih h).imp_right (List.mem_cons_of_mem _)

theorem insertEntry_sorted (key : String) (value : α) {entries : List (String × α)}
    (sorted : entries.Pairwise fun a b => a.1 < b.1) :
    (insertEntry key value entries).Pairwise fun a b => a.1 < b.1 := by
  induction entries with
  | nil => simp [insertEntry]
  | cons head rest ih =>
    have ⟨below, tail⟩ := List.pairwise_cons.1 sorted
    unfold insertEntry
    split
    · rename_i lt
      refine List.pairwise_cons.2 ⟨fun entry mem => ?_, sorted⟩
      rcases List.mem_cons.1 mem with rfl | mem
      · exact lt
      · exact String.lt_trans lt (below entry mem)
    · split
      · rename_i same
        exact List.pairwise_cons.2 ⟨fun entry mem => same ▸ below entry mem, tail⟩
      · refine List.pairwise_cons.2 ⟨fun entry mem => ?_, ih tail⟩
        rcases mem_insertEntry mem with rfl | mem
        · show head.1 < key
          grind
        · exact below entry mem

def empty : Dict α := ⟨[], .nil⟩

instance : EmptyCollection (Dict α) := ⟨empty⟩

instance : Inhabited (Dict α) := ⟨empty⟩

def get? (d : Dict α) (key : String) : Option α := d.entries.lookup key

def contains (d : Dict α) (key : String) : Bool := (d.get? key).isSome

def insert (d : Dict α) (key : String) (value : α) : Dict α :=
  ⟨insertEntry key value d.entries, insertEntry_sorted key value d.sorted⟩

def erase (d : Dict α) (key : String) : Dict α :=
  ⟨d.entries.filter (·.1 != key), d.sorted.filter _⟩

/-- A key that occurs again replaces the earlier value. -/
def ofList (entries : List (String × α)) : Dict α :=
  entries.foldl (fun d entry => d.insert entry.1 entry.2) empty

def keys (d : Dict α) : List String := d.entries.map (·.1)

def values (d : Dict α) : List α := d.entries.map (·.2)

def size (d : Dict α) : Nat := d.entries.length

/-- The values change and the keys stay, so the order stays as well. -/
def mapValues (f : String → α → β) (d : Dict α) : Dict β :=
  ⟨d.entries.map fun entry => (entry.1, f entry.1 entry.2),
    List.pairwise_map.2 d.sorted⟩

@[simp] theorem get?_empty (key : String) : (empty : Dict α).get? key = none := rfl

theorem lookup_cons_ite (entry : String × α) (rest : List (String × α)) (key : String) :
    (entry :: rest).lookup key = if key = entry.1 then some entry.2 else rest.lookup key := by
  obtain ⟨name, value⟩ := entry
  by_cases h : key = name
  · subst h
    rw [if_pos rfl]
    exact List.lookup_cons_self
  · simp [List.lookup_cons, beq_false_of_ne h, h]

theorem lookup_insertEntry (key other : String) (value : α) (entries : List (String × α)) :
    (insertEntry key value entries).lookup other =
      if other = key then some value else entries.lookup other := by
  induction entries with
  | nil => simp [insertEntry, lookup_cons_ite]
  | cons head rest ih => grind [insertEntry, lookup_cons_ite]

@[simp] theorem get?_insert (d : Dict α) (key other : String) (value : α) :
    (d.insert key value).get? other = if other = key then some value else d.get? other :=
  lookup_insertEntry key other value d.entries

theorem get?_insert_self (d : Dict α) (key : String) (value : α) :
    (d.insert key value).get? key = some value := by simp

@[simp] theorem get?_erase (d : Dict α) (key other : String) :
    (d.erase key).get? other = if other = key then none else d.get? other := by
  obtain ⟨entries, sorted⟩ := d
  simp only [get?, erase]
  clear sorted
  induction entries with
  | nil => simp
  | cons head rest ih =>
    grind [lookup_cons_ite]

/-- A key above all others goes to the end. -/
theorem insertEntry_above {key : String} {value : α} {entries : List (String × α)}
    (above : ∀ entry ∈ entries, entry.1 < key) :
    insertEntry key value entries = entries ++ [(key, value)] := by
  induction entries with
  | nil => rfl
  | cons head rest ih =>
    have below := above head List.mem_cons_self
    have tail := ih fun entry mem => above entry (List.mem_cons_of_mem _ mem)
    grind [insertEntry, String.lt_irrefl, String.lt_trans]

theorem entries_foldl_insert (rest : List (String × α)) (d : Dict α)
    (sorted : (d.entries ++ rest).Pairwise fun a b => a.1 < b.1) :
    (rest.foldl (fun d entry => d.insert entry.1 entry.2) d).entries = d.entries ++ rest := by
  induction rest generalizing d with
  | nil => simp
  | cons head rest ih =>
    have above : ∀ entry ∈ d.entries, entry.1 < head.1 := fun entry mem =>
      (List.pairwise_append.1 sorted).2.2 entry mem head List.mem_cons_self
    have step : (d.insert head.1 head.2).entries = d.entries ++ [head] := insertEntry_above above
    rw [List.foldl_cons, ih _ (by simpa [step] using sorted), step]
    simp

/-- The entries of a dictionary determine it. -/
@[simp] theorem ofList_entries (d : Dict α) : ofList d.entries = d := by
  have same := entries_foldl_insert d.entries empty (by simpa [empty] using d.sorted)
  obtain ⟨entries, sorted⟩ := d
  simp only [ofList]
  cases shape : entries.foldl (fun d entry => d.insert entry.1 entry.2) (empty : Dict α)
  simp_all [empty]

theorem lookup_eq_none_of_lt {key : String} {entries : List (String × α)}
    (above : ∀ entry ∈ entries, key < entry.1) : entries.lookup key = none := by
  induction entries with
  | nil => rfl
  | cons head rest ih =>
    have tail := ih fun entry mem => above entry (List.mem_cons_of_mem _ mem)
    have first := above head List.mem_cons_self
    have other : key ≠ head.1 := by
      rintro same
      exact String.lt_irrefl _ (same ▸ first)
    simp [lookup_cons_ite, other, tail]

theorem eq_of_lookup {xs ys : List (String × α)}
    (sortedX : xs.Pairwise fun a b => a.1 < b.1) (sortedY : ys.Pairwise fun a b => a.1 < b.1)
    (same : ∀ key, xs.lookup key = ys.lookup key) : xs = ys := by
  induction xs generalizing ys with
  | nil =>
    cases ys with
    | nil => rfl
    | cons b ys => simpa [lookup_cons_ite] using same b.1
  | cons a xs ih =>
    cases ys with
    | nil => simpa [lookup_cons_ite] using same a.1
    | cons b ys =>
      have ⟨belowX, tailX⟩ := List.pairwise_cons.1 sortedX
      have ⟨belowY, tailY⟩ := List.pairwise_cons.1 sortedY
      -- a head below the other head would have no counterpart in the other list
      have notLt : ¬ a.1 < b.1 := fun lt => by
        have missing : (b :: ys).lookup a.1 = none := lookup_eq_none_of_lt fun entry mem => by
          rcases List.mem_cons.1 mem with rfl | mem
          · exact lt
          · exact String.lt_trans lt (belowY entry mem)
        rw [← same, lookup_cons_ite, if_pos rfl] at missing
        cases missing
      have notGt : ¬ b.1 < a.1 := fun lt => by
        have missing : (a :: xs).lookup b.1 = none := lookup_eq_none_of_lt fun entry mem => by
          rcases List.mem_cons.1 mem with rfl | mem
          · exact lt
          · exact String.lt_trans lt (belowX entry mem)
        rw [same, lookup_cons_ite, if_pos rfl] at missing
        cases missing
      have key : a.1 = b.1 := by grind
      have value : a.2 = b.2 := by
        have := same a.1
        rw [lookup_cons_ite, lookup_cons_ite, if_pos rfl, if_pos key] at this
        exact Option.some.inj this
      have rest : ∀ k, xs.lookup k = ys.lookup k := fun k => by
        by_cases head : k = a.1
        · rw [head, lookup_eq_none_of_lt belowX, key, lookup_eq_none_of_lt belowY]
        · have := same k
          rwa [lookup_cons_ite, lookup_cons_ite, if_neg head, if_neg (key ▸ head)] at this
      rw [ih tailX tailY rest, Prod.ext key value]

/-- Dictionaries that answer every lookup alike are equal. -/
theorem ext_get? {d e : Dict α} (same : ∀ key, d.get? key = e.get? key) : d = e := by
  obtain ⟨xs, sortedX⟩ := d
  obtain ⟨ys, sortedY⟩ := e
  cases eq_of_lookup sortedX sortedY same
  rfl

theorem insert_insert (d : Dict α) (key : String) (value value' : α) :
    (d.insert key value).insert key value' = d.insert key value' := by
  refine ext_get? fun other => ?_
  by_cases same : other = key <;> simp [same]

theorem erase_insert (d : Dict α) (key : String) (value : α) :
    (d.insert key value).erase key = d.erase key := by
  refine ext_get? fun other => ?_
  by_cases same : other = key <;> simp [same]

theorem insert_of_get? {d : Dict α} {key : String} {value : α} (had : d.get? key = some value) :
    d.insert key value = d := by
  refine ext_get? fun other => ?_
  by_cases same : other = key <;> simp [same, had]

theorem erase_of_get? {d : Dict α} {key : String} (absent : d.get? key = none) :
    d.erase key = d := by
  refine ext_get? fun other => ?_
  by_cases same : other = key <;> simp [same, absent]

end Dict
end Reconfig
