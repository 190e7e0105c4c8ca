/-
Whom the names of a registry belong to.

A registration takes its names out of the registry by name, whatever stands under them, so nothing
but the order of events keeps it from taking away the names of another one. A name is given to one
registration only, a registration lists just the names that it was given, and it gives them back
once: closing it and dropping it later counts as one time, even if others have taken the names in
between. `Owned` says so of a moment, and `run_exclusive` what follows of every run.

A step either gives one free name to one registration (`Granted`) or takes all names from one
(`Released`). Both keep `Owned`, so the steps only have to be told apart by that.
-/
import Mathlib.Data.List.Nodup
import Reconfig.Proofs.Json.Canonical
import Reconfig.Service.Holdings

namespace Reconfig

namespace Dict

variable {α : Type}

theorem get?_foldl_erase (keys : List String) (d : Dict α) (key : String) :
    (keys.foldl (fun d key => d.erase key) d).get? key =
      if key ∈ keys then none else d.get? key := by
  induction keys generalizing d with
  | nil => simp
  | cons head rest ih =>
    rw [List.foldl_cons, ih, get?_erase]
    grind

theorem nodup_keys (d : Dict α) : d.keys.Nodup := by
  refine List.pairwise_map.2 (d.sorted.imp fun {a b} below same => ?_)
  rw [same] at below
  exact String.lt_irrefl _ below

end Dict

namespace Registry

variable {r : Registry} {c : Capability} {g : Registration} {name : String}

theorem mem_names_iff : name ∈ r.names ↔ (r.lookup? name).isSome = true := Dict.mem_keys_iff

theorem offer?_eq_some {r' : Registry} (offered : r.offer? name c = some r') :
    r.lookup? name = none ∧
      ∀ other, r'.lookup? other = if other = name then some c else r.lookup? other := by
  rw [offer?] at offered
  split at offered
  · cases offered
  · rename_i free
    cases offered
    exact ⟨by simpa [Dict.contains, lookup?] using free, fun other => Dict.get?_insert _ _ _ _⟩

theorem offer?_isSome : (r.offer? name c).isSome = true ↔ r.lookup? name = none := by
  rw [offer?, lookup?, Dict.contains]
  cases r.entries.get? name <;> simp

theorem register?_eq_some {r' : Registry} (registered : r.register? c = some (r', g)) :
    r.offer? c.name c = some r' ∧ g = ⟨c, [c.name], false⟩ := by
  obtain ⟨r', offered, result⟩ := Option.map_eq_some_iff.1 registered
  cases result
  exact ⟨offered, rfl⟩

theorem alias?_eq_some {r' : Registry} {g' : Registration}
    (given : r.alias? g name = some (r', g')) : g.closed = false ∧
      r.offer? name g.capability = some r' ∧ g' = { g with names := g.names ++ [name] } := by
  rw [alias?] at given
  split at given
  · cases given
  · rename_i closed
    obtain ⟨r', offered, result⟩ := Option.map_eq_some_iff.1 given
    cases result
    exact ⟨Bool.eq_false_iff.2 closed, offered, rfl⟩

theorem lookup?_release (r : Registry) (g : Registration) (name : String) :
    (r.release g).1.lookup? name =
      if g.closed = false ∧ name ∈ g.names then none else r.lookup? name := by
  rw [release]
  cases g.closed with
  | true => simp
  | false => simpa [lookup?] using Dict.get?_foldl_erase g.names r.entries name

theorem closed_release (r : Registry) (g : Registration) : (r.release g).2.closed = true := by
  rw [release]
  split
  · assumption
  · rfl

end Registry

namespace Holdings

variable {h h' : Holdings} {id name : String} {g : Registration} {c : Capability}

/-- The registration with the identifier, unless it is closed. -/
def active? (h : Holdings) (id : String) : Option Registration :=
  (h.live.get? id).filter fun g => !g.closed

/-- The names that the registration with the identifier can still give back. -/
def owned (h : Holdings) (id : String) : List String := ((h.active? id).map (·.names)).getD []

/-- The names of all registrations, one registration after the other. -/
def held (h : Holdings) : List String := h.live.keys.flatMap h.owned

theorem owned_of_active (active : h.active? id = some g) : h.owned id = g.names := by
  rw [owned, active]
  rfl

theorem exists_active (mem : name ∈ h.owned id) : ∃ g, h.active? id = some g ∧ name ∈ g.names := by
  rw [owned] at mem
  cases active : h.active? id with
  | none =>
    rw [active] at mem
    cases mem
  | some g =>
    rw [active] at mem
    exact ⟨g, rfl, mem⟩

theorem mem_held_iff : name ∈ h.held ↔ ∃ id, name ∈ h.owned id := by
  rw [held, List.mem_flatMap]
  refine exists_congr fun id => and_iff_right_of_imp fun mem => Dict.mem_keys_iff.2 ?_
  obtain ⟨g, active, -⟩ := exists_active mem
  obtain ⟨found, -⟩ := Option.filter_eq_some_iff.1 active
  exact Option.isSome_of_eq_some found

theorem mem_owned_iff (found : h.live.get? id = some g) :
    name ∈ h.owned id ↔ g.closed = false ∧ name ∈ g.names := by
  cases closed : g.closed <;> simp [owned, active?, found, Option.filter, closed]

/-! ## What a step does -/

/-- The names of one registration are free, and all others stand for what they stood for. -/
structure Released (h : Holdings) (id : String) (h' : Holdings) : Prop where
  lookup : ∀ name, h'.registry.lookup? name =
    if name ∈ h.owned id then none else h.registry.lookup? name
  active : ∀ other, h'.active? other = if other = id then none else h.active? other

/-- One registration has one more name, which was free, and which stands for its capability. -/
structure Granted (h : Holdings) (id name : String) (g : Registration) (h' : Holdings) : Prop where
  free : h.registry.lookup? name = none
  names : g.names = h.owned id ++ [name]
  capability : ∀ g', h.active? id = some g' → g'.capability = g.capability
  lookup : ∀ other, h'.registry.lookup? other =
    if other = name then some g.capability else h.registry.lookup? other
  active : ∀ other, h'.active? other = if other = id then some g else h.active? other

theorem active?_insert (h : Holdings) (r : Registry) (id : String) (g : Registration)
    (other : String) : active? ⟨r, h.live.insert id g⟩ other =
      if other = id then if g.closed then none else some g else h.active? other := by
  simp only [active?, Dict.get?_insert]
  split
  · cases closed : g.closed <;> simp [Option.filter, closed]
  · rfl

theorem active?_erase (h : Holdings) (r : Registry) (id other : String) :
    active? ⟨r, h.live.erase id⟩ other = if other = id then none else h.active? other := by
  simp only [active?, Dict.get?_erase]
  split <;> rfl

theorem released_self (absent : h.live.get? id = none) : Released h id h := by
  have inactive : h.active? id = none := by
    rw [active?, absent]
    rfl
  refine ⟨fun name => ?_, fun other => ?_⟩
  · simp [owned, inactive]
  · split
    · rename_i same
      rw [same, inactive]
    · rfl

theorem released_of_release {live : Dict Registration} (found : h.live.get? id = some g)
    (active : ∀ r other, active? ⟨r, live⟩ other = if other = id then none else h.active? other) :
    Released h id ⟨(h.registry.release g).1, live⟩ where
  lookup name := by
    simp only [mem_owned_iff found]
    exact Registry.lookup?_release h.registry g name
  active := active _

theorem released_finish (h : Holdings) (id : String) : Released h id (h.finish id) := by
  rw [finish]
  cases found : h.live.get? id with
  | none => exact released_self found
  | some g => exact released_of_release found fun r other => h.active?_erase r id other

theorem released_close (h : Holdings) (id : String) : Released h id (h.close id) := by
  rw [close]
  cases found : h.live.get? id with
  | none => exact released_self found
  | some g =>
    refine released_of_release found fun r other => ?_
    rw [active?_insert, Registry.closed_release]
    rfl

/-- What is dropped was closed before or is closed then. -/
theorem finish_close (h : Holdings) (id : String) : (h.close id).finish id = h.finish id := by
  cases found : h.live.get? id with
  | none => simp [close, finish, found]
  | some g =>
    have closed := Registry.closed_release h.registry g
    have again : ((h.registry.release g).1.release (h.registry.release g).2).1 =
        (h.registry.release g).1 := by
      rw [Registry.release, closed]
      rfl
    simp [close, finish, found, again, Dict.erase_insert]

theorem granted_alias (given : h.alias? id name = some h') : ∃ g, h.active? id = some g ∧
    Granted h id name { g with names := g.names ++ [name] } h' := by
  obtain ⟨g, found, given⟩ := Option.bind_eq_some_iff.1 given
  obtain ⟨⟨r, g'⟩, aliased, result⟩ := Option.bind_eq_some_iff.1 given
  cases result
  obtain ⟨closed, offered, rfl⟩ := Registry.alias?_eq_some aliased
  obtain ⟨free, lookup⟩ := Registry.offer?_eq_some offered
  have active : h.active? id = some g := by simp [active?, found, Option.filter, closed]
  refine ⟨g, active, free, ?_, ?_, lookup, fun other => ?_⟩
  · rw [owned_of_active active]
  · intro g' active'
    rw [active] at active'
    cases active'
    rfl
  · simp only [active?_insert, closed]
    rfl

theorem alias?_of_inactive (inactive : h.active? id = none) (name : String) :
    h.alias? id name = none := by
  cases found : h.live.get? id with
  | none =>
    rw [alias?, found]
    rfl
  | some g =>
    have closed : g.closed = true := by simpa [active?, found, Option.filter] using inactive
    rw [alias?, found, Option.bind_eq_bind, Option.bind_some, Registry.alias?, closed]
    rfl

/-! ## Names that are owned once -/

/-- A name belongs to one registration at most, which has it once. It is registered just if it
belongs to one, for the capability of that one. -/
structure Owned (h : Holdings) : Prop where
  nodup : ∀ id, (h.owned id).Nodup
  apart : ∀ {id id' name}, name ∈ h.owned id → name ∈ h.owned id' → id = id'
  lookup : ∀ {id g name}, h.active? id = some g → name ∈ g.names →
    h.registry.lookup? name = some g.capability
  registered : ∀ {name c}, h.registry.lookup? name = some c → ∃ id, name ∈ h.owned id

theorem owned_empty : Owned empty where
  nodup _ := .nil
  apart mem := nomatch mem
  lookup active := nomatch active
  registered found := nomatch found

theorem Released.owned (released : Released h id h') (other : String) :
    h'.owned other = if other = id then [] else h.owned other := by
  rw [Holdings.owned, released.active]
  split <;> rfl

theorem Granted.owned (granted : Granted h id name g h') (other : String) :
    h'.owned other = if other = id then h.owned id ++ [name] else h.owned other := by
  rw [Holdings.owned, granted.active, ← granted.names]
  split <;> rfl

namespace Owned

theorem lookup?_eq_none_iff (owned : h.Owned) :
    h.registry.lookup? name = none ↔ ∀ id, name ∉ h.owned id := by
  constructor
  · intro free id mem
    obtain ⟨g, active, listed⟩ := exists_active mem
    rw [owned.lookup active listed] at free
    cases free
  · intro unowned
    cases found : h.registry.lookup? name with
    | none => rfl
    | some c =>
      obtain ⟨id, mem⟩ := owned.registered found
      exact absurd mem (unowned id)

theorem of_released (owned : h.Owned) (released : Released h id h') : h'.Owned where
  nodup other := by
    rw [released.owned]
    split
    · exact .nil
    · exact owned.nodup other
  apart {one other name} mem mem' := by
    rw [released.owned] at mem mem'
    split at mem <;> split at mem' <;> grind [owned.apart]
  lookup {other g name} active listed := by
    rw [released.active] at active
    split at active
    · cases active
    · rename_i different
      have kept : name ∉ h.owned id := fun mem =>
        different (owned.apart (owned_of_active active ▸ listed) mem)
      rw [released.lookup, if_neg kept, owned.lookup active listed]
  registered {name c} found := by
    rw [released.lookup] at found
    split at found
    · cases found
    · rename_i kept
      obtain ⟨other, mem⟩ := owned.registered found
      have different : other ≠ id := by
        rintro rfl
        exact kept mem
      refine ⟨other, ?_⟩
      rw [released.owned, if_neg different]
      exact mem

theorem of_granted (owned : h.Owned) (granted : Granted h id name g h') : h'.Owned := by
  have new := owned.lookup?_eq_none_iff.1 granted.free
  constructor
  · intro other
    rw [granted.owned]
    split
    · exact List.nodup_append.2 ⟨owned.nodup id, List.nodup_singleton name, by grind⟩
    · exact owned.nodup other
  · intro one other name mem mem'
    rw [granted.owned] at mem mem'
    split at mem <;> split at mem' <;> grind [owned.apart]
  · intro other g' name' active listed
    rw [granted.active] at active
    rw [granted.lookup]
    split at active
    · cases active
      split
      · rfl
      · rename_i different
        have mem : name' ∈ h.owned id := by
          rw [granted.names, List.mem_append, List.mem_singleton] at listed
          exact listed.resolve_right different
        obtain ⟨former, active, listed⟩ := exists_active mem
        rw [owned.lookup active listed, granted.capability former active]
    · have different : name' ≠ name := by
        rintro rfl
        exact new other (owned_of_active active ▸ listed)
      rw [if_neg different, owned.lookup active listed]
  · intro name' c found
    rw [granted.lookup] at found
    split at found
    · rename_i same
      refine ⟨id, ?_⟩
      rw [granted.owned, if_pos rfl, same]
      exact List.mem_append_right _ List.mem_cons_self
    · obtain ⟨other, mem⟩ := owned.registered found
      refine ⟨other, ?_⟩
      rw [granted.owned]
      split
      · rename_i same
        exact List.mem_append_left _ (same ▸ mem)
      · exact mem

end Owned

/-- A registration under an identifier that is in use takes the place of the earlier one, once it
has got its name. -/
theorem granted_register (owned : h.Owned) (registered : h.register? id c = some h') :
    Granted (h.finish id) id c.name ⟨c, [c.name], false⟩ h' := by
  obtain ⟨⟨r, g⟩, registered, result⟩ := Option.map_eq_some_iff.1 registered
  obtain ⟨offered, rfl⟩ := Registry.register?_eq_some registered
  obtain ⟨free, lookup⟩ := Registry.offer?_eq_some offered
  cases result
  have new := owned.lookup?_eq_none_iff.1 free
  have before := h.released_finish id
  have after := released_finish { h with registry := r } id
  have none : (h.finish id).active? id = .none := by rw [before.active, if_pos rfl]
  refine ⟨?_, ?_, ?_, fun other => ?_, fun other => ?_⟩
  · rw [before.lookup, if_neg (new id), free]
  · rw [before.owned, if_pos rfl]
    rfl
  · intro g' active
    rw [none] at active
    cases active
  · dsimp only
    rw [after.lookup, before.lookup, lookup]
    show (if other ∈ h.owned id then _ else _) = _
    split
    · rename_i mem
      have different : other ≠ c.name := by
        rintro rfl
        exact new id mem
      rw [if_neg different]
    · rfl
  · dsimp only
    rw [active?_insert, after.active, before.active]
    split <;> rfl

theorem Owned.step (owned : h.Owned) (s : Step) : (h.step s).Owned := by
  match s with
  | .register id c =>
    rw [Holdings.step]
    cases registered : h.register? id c with
    | none => exact owned
    | some h' =>
      have without := owned.of_released (h.released_finish id)
      exact without.of_granted (granted_register owned registered)
  | .alias id name =>
    rw [Holdings.step]
    cases given : h.alias? id name with
    | none => exact owned
    | some h' =>
      obtain ⟨g, -, granted⟩ := granted_alias given
      exact owned.of_granted granted
  | .close id => exact owned.of_released (h.released_close id)
  | .finish id => exact owned.of_released (h.released_finish id)

theorem owned_run (steps : List Step) : (run steps).Owned := by
  have each : ∀ h : Holdings, h.Owned → (steps.foldl Holdings.step h).Owned := by
    induction steps with
    | nil => exact fun h owned => owned
    | cons s rest ih => exact fun h owned => ih _ (owned.step s)
  exact each empty owned_empty

/-! ## What registrations can rely on -/

namespace Owned

theorem free_iff (owned : h.Owned) : h.registry.lookup? name = none ↔ name ∉ h.held := by
  rw [owned.lookup?_eq_none_iff, mem_held_iff, not_exists]

theorem nodup_held (owned : h.Owned) : h.held.Nodup := by
  refine List.nodup_flatMap.2 ⟨fun id _ => owned.nodup id, ?_⟩
  refine (Dict.nodup_keys h.live).imp fun {id id'} different name mem mem' => ?_
  exact different (owned.apart mem mem')

theorem names_perm (owned : h.Owned) : h.registry.names.Perm h.held := by
  refine (List.perm_ext_iff_of_nodup (Dict.nodup_keys _) owned.nodup_held).2 fun name => ?_
  show name ∈ h.registry.names ↔ _
  rw [Registry.mem_names_iff, ← Option.ne_none_iff_isSome, ne_eq, owned.free_iff, not_not]

theorem register?_isSome (owned : h.Owned) (id : String) (c : Capability) :
    (h.register? id c).isSome = true ↔ c.name ∉ h.held := by
  rw [register?, Registry.register?, Option.isSome_map, Option.isSome_map,
    Registry.offer?_isSome, owned.free_iff]

theorem alias?_isSome (owned : h.Owned) (active : h.active? id = some g) (name : String) :
    (h.alias? id name).isSome = true ↔ name ∉ h.held := by
  obtain ⟨found, live⟩ := Option.filter_eq_some_iff.1 active
  have live : g.closed = false := by simpa using live
  have outcome : (h.alias? id name).isSome = (h.registry.offer? name g.capability).isSome := by
    rw [alias?, found, Option.bind_eq_bind, Option.bind_some, Registry.alias?, live]
    cases h.registry.offer? name g.capability <;> rfl
  rw [outcome, Registry.offer?_isSome, owned.free_iff]

end Owned

/-- The names of the registry are those of its open registrations, each of which has its own. A name
leads to the one that has it, can be given away just while none has it, leads to the one that it is
given to, and is free again as soon as that one ends. A registration ends once. -/
structure Exclusive (h : Holdings) : Prop where
  names : h.registry.names.Perm h.held
  nodup : h.held.Nodup
  lookup : ∀ id g name, h.active? id = some g → name ∈ g.names →
    h.registry.lookup? name = some g.capability
  missing : ∀ name, name ∉ h.held → h.registry.lookup? name = none
  registers : ∀ id c, (h.register? id c).isSome = true ↔ c.name ∉ h.held
  registered : ∀ id c h', h.register? id c = some h' →
    Granted (h.finish id) id c.name ⟨c, [c.name], false⟩ h'
  aliases : ∀ id g name, h.active? id = some g →
    ((h.alias? id name).isSome = true ↔ name ∉ h.held)
  aliased : ∀ id name h', h.alias? id name = some h' → ∃ g, h.active? id = some g ∧
    Granted h id name { g with names := g.names ++ [name] } h'
  unaliased : ∀ id name, h.active? id = none → h.alias? id name = none
  closes : ∀ id, h.Released id (h.close id)
  finishes : ∀ id, h.Released id (h.finish id)
  once : ∀ id, (h.close id).finish id = h.finish id

/-- Whatever is registered, given one more name, closed and dropped in whatever order, names belong
to one registration each. -/
theorem run_exclusive (steps : List Step) : (run steps).Exclusive := by
  have owned := owned_run steps
  constructor
  · exact owned.names_perm
  · exact owned.nodup_held
  · exact fun id g name => owned.lookup
  · exact fun name => owned.free_iff.2
  · exact owned.register?_isSome
  · exact fun id c h' registered => granted_register owned registered
  · exact fun id g name active => owned.alias?_isSome active name
  · exact fun id name h' given => granted_alias given
  · exact fun id name inactive => alias?_of_inactive inactive name
  · exact released_close _
  · exact released_finish _
  · exact finish_close _

/-- The second registration takes a name that the first one has given back, and has one more. -/
def handedOver : List Step :=
  [.register "a" ⟨"x", .null⟩, .close "a", .register "b" ⟨"x", .bool true⟩, .alias "b" "y",
    .alias "a" "z", .finish "a"]

/-- Dropping the first registration has taken nothing from the second one, so none of its names can
be given to a third, which gets a free one. -/
theorem handedOver_exclusive :
    (run handedOver).registry.names = ["x", "y"] ∧
    (run handedOver).registry.lookup? "y" = some ⟨"x", .bool true⟩ ∧
    (run handedOver).register? "c" ⟨"y", .null⟩ = none ∧
    ∃ h', (run handedOver).register? "c" ⟨"z", .null⟩ = some h' ∧
      h'.registry.lookup? "z" = some ⟨"z", .null⟩ ∧
      h'.registry.lookup? "y" = some ⟨"x", .bool true⟩ := by
  have exclusive := run_exclusive handedOver
  have active : (run handedOver).active? "b" = some ⟨⟨"x", .bool true⟩, ["x", "y"], false⟩ := by rfl
  have known := exclusive.lookup "b" _ "y" active (by decide)
  have held : (run handedOver).held = ["x", "y"] := by rfl
  refine ⟨by rfl, known, ?_, ?_⟩
  · rw [← Option.not_isSome_iff_eq_none, exclusive.registers, held]
    decide
  · have free : "z" ∉ (run handedOver).held := by
      rw [held]
      decide
    obtain ⟨h', registered⟩ :=
      Option.isSome_iff_exists.1 ((exclusive.registers "c" ⟨"z", .null⟩).2 free)
    have lookup := (exclusive.registered _ _ _ registered).lookup
    refine ⟨h', registered, lookup "z", (lookup "y").trans ?_⟩
    exact known

end Holdings
end Reconfig
