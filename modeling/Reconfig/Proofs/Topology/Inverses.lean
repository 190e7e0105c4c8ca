/-
Changes that can be taken back.

A removal undoes an addition, and a second change of a setting undoes the first one, to the same
topology down to the order of its parts, whether that is well formed or not. Names and addresses
may occur more than once in it. A change then works on the first stripe or node that fits, while a
removal takes all that fit. What an addition adds must therefore be the only one that fits, and the
addition makes sure of that beforehand. What is changed in place is still the first one that fits
afterwards, so everything around it is kept here as a function of what stands in that place.
-/
import Reconfig.Proofs.Topology.Shrinking

namespace Reconfig

/-! ## The place of what was found -/

section Place

variable {α : Type} {p : α → Bool} {f : α → α} {xs : List α} {a : α}

/-- What satisfies the predicate is found where it is put, and is changed there. -/
structure Place (p : α → Bool) (put : α → List α) : Prop where
  find? : ∀ a, p a = true → (put a).find? p = some a
  update : ∀ a f, p a = true → updateFirst? p f (put a) = some (put (f a))

theorem exists_place (found : xs.find? p = some a) : ∃ put, Place p put ∧ put a = xs := by
  obtain ⟨-, before, after, rfl, others⟩ := List.find?_eq_some_iff_append.1 found
  have others : ∀ b ∈ before, p b = false := by simpa using others
  refine ⟨fun b => before ++ b :: after, ⟨fun b fits => ?_, fun b f fits => ?_⟩, rfl⟩
  · exact List.find?_eq_some_iff_append.2 ⟨fits, before, after, rfl, by simpa using others⟩
  · exact updateFirst?_append others fits

theorem updateFirst?_eq_none (none : xs.find? p = none) : updateFirst? p f xs = .none := by
  induction xs with
  | nil => rfl
  | cons b rest ih =>
    obtain ⟨first, others⟩ := List.forall_mem_cons.1 (List.find?_eq_none.1 none)
    rw [updateFirst?, if_neg first, ih (List.find?_eq_none.2 others)]
    rfl

end Place

namespace Cluster

variable {c : Cluster} {address : String}

/-- A stripe of the name is found where it is put, and is changed there. -/
structure StripePlace (name : String) (put : Stripe → Cluster) : Prop where
  find? : ∀ s, s.name = name → (put s).findStripe? name = some s
  update : ∀ s f, s.name = name → (put s).updateStripe? name f = some (put (f s))

theorem exists_stripePlace {name : String} {s : Stripe} (found : c.findStripe? name = some s) :
    ∃ put, StripePlace name put ∧ put s = c := by
  obtain ⟨put, place, filled⟩ := exists_place found
  refine ⟨fun s => { c with stripes := put s }, ⟨fun s named => ?_, fun s f named => ?_⟩, ?_⟩
  · exact place.find? s (beq_iff_eq.2 named)
  · rw [updateStripe?, place.update s f (beq_iff_eq.2 named)]
    rfl
  · dsimp only
    rw [filled]

theorem updateStripe?_eq_none {name : String} {f : Stripe → Stripe}
    (none : c.findStripe? name = none) : c.updateStripe? name f = .none := by
  rw [updateStripe?, updateFirst?_eq_none none]
  rfl

/-- A node with the address is found where it is put, and is changed there. -/
structure NodePlace (address : String) (put : Node → Cluster) : Prop where
  find? : ∀ n, n.address = address → (put n).findNode? address = some n
  update : ∀ n f, n.address = address → (put n).updateNode? address f = some (put (f n))

/-- The first node with the address stands in the first stripe that has one. -/
theorem exists_nodePlace {n : Node} (found : c.findNode? address = some n) :
    ∃ put, NodePlace address put ∧ put n = c := by
  rw [findNode?, nodes, List.find?_flatMap] at found
  obtain ⟨before, s, after, shape, inside, others⟩ := List.findSome?_eq_some_iff.1 found
  obtain ⟨put, place, filled⟩ := exists_place inside
  have without : ∀ b ∈ before, b.contains address = false := fun b mem => by
    simpa [Stripe.contains] using List.find?_eq_none.1 (others b mem)
  refine ⟨fun m => { c with stripes := before ++ { s with nodes := put m } :: after }, ⟨?_, ?_⟩, ?_⟩
  · intro m named
    rw [findNode?, nodes, List.find?_flatMap]
    refine List.findSome?_eq_some_iff.2 ⟨before, _, after, rfl, ?_, others⟩
    exact place.find? m (by simpa using named)
  · intro m f named
    have fits : (m.address == address) = true := by simpa using named
    have has : Stripe.contains { s with nodes := put m } address = true :=
      List.any_eq_true.2 ⟨m, List.mem_of_find?_eq_some (place.find? m fits), fits⟩
    rw [updateNode?, updateFirst?_append without has, place.update m f fits]
    rfl
  · dsimp only
    rw [filled, ← shape]

/-- The settings of a target, if it is there. -/
def settings? (c : Cluster) : SettingTarget → Option (Dict String)
  | .cluster => some c.settings
  | .node address => (c.findNode? address).map (·.settings)

/-- A change of a setting of the target does to the settings what it does, and nothing else. -/
theorem exists_settingsPlace {target : SettingTarget} {settings : Dict String}
    (held : c.settings? target = some settings) : ∃ put : Dict String → Cluster,
      put settings = c ∧ ∀ settings op name value,
        Change.changeSetting (put settings) op target name value =
          (Change.settingUpdate op name value).map fun update => put (update settings) := by
  cases target with
  | cluster =>
    cases held
    refine ⟨fun settings => { c with settings }, rfl, fun settings op name value => ?_⟩
    rw [Change.changeSetting]
    cases Change.settingUpdate op name value <;> rfl
  | node address =>
    obtain ⟨n, found, rfl⟩ := Option.map_eq_some_iff.1 held
    have named : n.address = address := by simpa using List.find?_some found
    obtain ⟨put, place, filled⟩ := exists_nodePlace found
    refine ⟨fun settings => put { n with settings }, filled, fun settings op name value => ?_⟩
    rw [Change.changeSetting, place.find? { n with settings } named]
    cases Change.settingUpdate op name value with
    | error fault => rfl
    | ok update =>
      have updated :=
        place.update { n with settings } (fun n => { n with settings := update n.settings }) named
      exact congrArg (fun after => Except.ok (after.getD (put { n with settings }))) updated

end Cluster

/-! ## Additions -/

namespace Stripe

variable {s : Stripe} {node : Node}

def adding (s : Stripe) (node : Node) : Stripe := { s with nodes := s.nodes ++ [node] }

theorem contains_adding : (s.adding node).contains node.address = true := by
  simp [contains, adding]

theorem without_adding (others : ∀ n ∈ s.nodes, n.address ≠ node.address) :
    (s.adding node).without node.address = s := by
  have kept : s.nodes.filter (·.address != node.address) = s.nodes :=
    List.filter_eq_self.2 fun n mem => bne_iff_ne.2 (others n mem)
  rw [without, adding, List.filter_append, kept]
  simp

end Stripe

namespace Change

variable {c r : Cluster} {change undo : Change}

theorem removeNode_of_place {stripe address : String} {put : Stripe → Cluster} {s : Stripe}
    (place : Cluster.StripePlace stripe put) (named : s.name = stripe)
    (has : s.contains address = true) :
    removeNode (put s) stripe address = .ok (put (s.without address)) := by
  rw [removeNode, place.find? s named]
  dsimp only
  rw [if_pos has, place.update s _ named]
  rfl

/-- The address is new to the cluster, so the removal takes just the node that was added. -/
theorem removeNode_of_addNode {stripe : String} {node : Node}
    (added : addNode c stripe node = .ok r) : removeNode r stripe node.address = .ok c := by
  rw [addNode] at added
  split at added
  · cases added
  · rename_i new
    cases found : c.findStripe? stripe with
    | none =>
      rw [Cluster.updateStripe?_eq_none found] at added
      cases added
    | some s =>
      have held : s ∈ c.stripes := List.mem_of_find?_eq_some found
      have named : s.name = stripe := by simpa using List.find?_some found
      have others : ∀ n ∈ s.nodes, n.address ≠ node.address := fun n mem same =>
        new (List.any_eq_true.2 ⟨s, held, List.any_eq_true.2 ⟨n, mem, beq_iff_eq.2 same⟩⟩)
      obtain ⟨put, place, rfl⟩ := Cluster.exists_stripePlace found
      rw [place.update s _ named] at added
      cases added
      calc removeNode (put (s.adding node)) stripe node.address
        _ = .ok (put ((s.adding node).without node.address)) :=
          removeNode_of_place place (s := s.adding node) named Stripe.contains_adding
        _ = .ok (put s) := by rw [Stripe.without_adding others]

/-- The name is new to the cluster, so the removal takes just the stripe that was added. -/
theorem removeStripe_of_addStripe {stripe : Stripe} (added : addStripe c stripe = .ok r) :
    removeStripe r stripe.name = .ok c := by
  rw [addStripe] at added
  split at added
  · cases added
  · rename_i new
    cases added
    have others : ∀ s ∈ c.stripes, s.name ≠ stripe.name := by
      simpa [Cluster.findStripe?] using new
    have kept : c.stripes.filter (·.name != stripe.name) = c.stripes :=
      List.filter_eq_self.2 fun s mem => bne_iff_ne.2 (others s mem)
    have found : (c.stripes ++ [stripe]).find? (·.name == stripe.name) = some stripe :=
      List.find?_eq_some_iff_append.2 ⟨by simp, c.stripes, [], rfl, by simpa using others⟩
    rw [removeStripe, Cluster.findStripe?, found, List.filter_append, kept]
    simp

/-! ## Settings -/

theorem changeSetting_of_set {target : SettingTarget} {settings : Dict String} {name : String}
    {value former : Option String} {op : SettingOp} {restore : Dict String → Dict String}
    (held : c.settings? target = some settings)
    (restores : settingUpdate op name former = .ok restore)
    (back : ∀ new, restore (settings.insert name new) = settings)
    (changed : changeSetting c .set target name value = .ok r) :
    changeSetting r op target name former = .ok c := by
  obtain ⟨put, rfl, effect⟩ := Cluster.exists_settingsPlace held
  rw [effect] at changed
  cases value with
  | none => cases changed
  | some new =>
    cases changed
    rw [effect, restores]
    exact congrArg (fun settings => Except.ok (put settings)) (back new)

/-- The second change puts back what the first one changes in the topology. -/
inductive TakenBack (c : Cluster) : Change → Change → Prop
  | nodeAddition (stripe : String) (node : Node) :
    TakenBack c (.nodeAddition stripe node) (.nodeRemoval stripe node.address)
  | stripeAddition (stripe : Stripe) :
    TakenBack c (.stripeAddition stripe) (.stripeRemoval stripe.name)
  | replacement {target : SettingTarget} {settings : Dict String} {name former : String}
    (held : c.settings? target = some settings) (had : settings.get? name = some former)
    (value : Option String) :
    TakenBack c (.setting .set target name value) (.setting .set target name (some former))
  | introduction {target : SettingTarget} {settings : Dict String} {name : String}
    (held : c.settings? target = some settings) (had : settings.get? name = none)
    (value ignored : Option String) :
    TakenBack c (.setting .set target name value) (.setting .unset target name ignored)

/-- What an addition or the setting of a value makes of a topology, well formed or not, becomes that
topology again by the change that takes it back. -/
theorem apply_of_takenBack (takenBack : TakenBack c change undo)
    (applied : change.apply (some c) = .ok r) : undo.apply (some r) = .ok c := by
  cases takenBack with
  | nodeAddition stripe node => exact removeNode_of_addNode applied
  | stripeAddition stripe => exact removeStripe_of_addStripe applied
  | replacement held had value =>
    refine changeSetting_of_set held rfl (fun new => ?_) applied
    rw [Dict.insert_insert, Dict.insert_of_get? had]
  | introduction held had value ignored =>
    refine changeSetting_of_set held rfl (fun new => ?_) applied
    rw [Dict.erase_insert, Dict.erase_of_get? had]

/-- Two stripes of one name, in which all nodes have one address. -/
def tangled : Cluster where
  name := "c"
  stripes := [[("a", Dict.empty.insert "k" "v"), ("b", ∅)], [("d", ∅)]].map fun nodes =>
    ⟨"s", nodes.map fun (name, settings) => ⟨name, "h", 1, ∅, settings⟩⟩
  settings := ∅

/-- Even here a node goes as it came, and a setting of the first of the nodes gets its value back or
is gone again. -/
theorem tangled_takenBack :
    (∃ r, (nodeAddition "s" ⟨"e", "h", 2, ∅, ∅⟩).apply (some tangled) = .ok r ∧
      (nodeRemoval "s" "h:2").apply (some r) = .ok tangled) ∧
    (∃ r, (setting .set (.node "h:1") "k" (some "w")).apply (some tangled) = .ok r ∧
      (setting .set (.node "h:1") "k" (some "v")).apply (some r) = .ok tangled) ∧
    ∃ r, (setting .set (.node "h:1") "l" (some "w")).apply (some tangled) = .ok r ∧
      (setting .unset (.node "h:1") "l" none).apply (some r) = .ok tangled := by
  have held : tangled.settings? (.node "h:1") = some (Dict.empty.insert "k" "v") := by rfl
  refine ⟨⟨_, rfl, ?_⟩, ⟨_, rfl, ?_⟩, _, rfl, ?_⟩
  · exact apply_of_takenBack (.nodeAddition "s" ⟨"e", "h", 2, ∅, ∅⟩) rfl
  · exact apply_of_takenBack (.replacement held rfl (some "w")) rfl
  · exact apply_of_takenBack (.introduction held rfl (some "w") none) rfl

end Change
end Reconfig
