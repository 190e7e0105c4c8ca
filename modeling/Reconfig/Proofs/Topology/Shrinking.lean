/-
Changes that cannot make a topology worse.

A removal takes nodes or stripes out of a topology, and a change of settings leaves all but the
settings as it is. So what comes out is a part of the topology, settings apart, and a part of a
well-formed topology within a limit is so too, as long as it has a stripe and none of its stripes is
empty. `Processor.validate_of_shrinking` says which removals leave a stripe empty or none at all.
-/
import Mathlib.Algebra.Order.BigOperators.Group.List
import Mathlib.Algebra.Order.Group.Nat
import Mathlib.Data.List.Flatten
import Reconfig.Proofs.Topology.WellFormed

namespace Reconfig

/-! ## Updates in place -/

section Update

variable {α β : Type} {p : α → Bool} {f : α → α} {g : α → β}

theorem updateFirst?_append {before after : List α} {a : α} (others : ∀ b ∈ before, p b = false)
    (found : p a = true) :
    updateFirst? p f (before ++ a :: after) = some (before ++ f a :: after) := by
  induction before with
  | nil => exact if_pos found
  | cons b rest ih =>
    obtain ⟨other, others⟩ := List.forall_mem_cons.1 others
    rw [List.cons_append, updateFirst?, other, ih others]
    rfl

/-- An update that cannot be seen in one element cannot be seen in the list. -/
theorem map_updateFirst? {xs ys : List α} (unseen : ∀ a, g (f a) = g a)
    (updated : updateFirst? p f xs = some ys) : ys.map g = xs.map g := by
  induction xs generalizing ys with
  | nil => cases updated
  | cons x rest ih =>
    rw [updateFirst?] at updated
    split at updated
    · cases updated
      rw [List.map_cons, unseen, List.map_cons]
    · obtain ⟨later, inRest, rfl⟩ := Option.map_eq_some_iff.1 updated
      rw [List.map_cons, ih inRest, List.map_cons]

end Update

/-! ## Parts of a topology -/

/-- The node with all but its settings. -/
def Node.bare (n : Node) : Node := { n with settings := ∅ }

def Stripe.bare (s : Stripe) : Stripe := { s with nodes := s.nodes.map Node.bare }

/-- The cluster with all but its settings and those of its nodes. -/
def Cluster.bare (c : Cluster) : Cluster :=
  { c with stripes := c.stripes.map Stripe.bare, settings := ∅ }

/-- The stripe without the nodes that have the address. -/
def Stripe.without (s : Stripe) (address : String) : Stripe :=
  { s with nodes := s.nodes.filter (·.address != address) }

namespace Cluster

variable {r c : Cluster}

/-- Settings apart, the first cluster has nothing that the second one lacks, and what it has stands
in the same order. -/
structure PartOf (r c : Cluster) : Prop where
  name : r.name = c.name
  stripes : (r.stripes.map (·.name)).Sublist (c.stripes.map (·.name))
  nodes : (r.nodes.map Node.bare).Sublist (c.nodes.map Node.bare)

namespace PartOf

variable (part : r.PartOf c)

include part

theorem map_nodes {β : Type} {f : Node → β} (plain : ∀ n, f n.bare = f n) :
    (r.nodes.map f).Sublist (c.nodes.map f) := by
  have mapped := part.nodes.map f
  rwa [List.map_map, List.map_map, show f ∘ Node.bare = f from funext plain] at mapped

theorem offheapSizes : r.offheapSizes.Sublist c.offheapSizes :=
  (part.map_nodes (f := (·.offheap.values)) fun _ => rfl).flatten

theorem length_stripes_le : r.stripes.length ≤ c.stripes.length := by
  simpa using part.stripes.length_le

theorem wellFormed (formed : c.WellFormed) (nonempty : r.stripes ≠ [])
    (occupied : ∀ s ∈ r.stripes, s.nodes ≠ []) : r.WellFormed where
  named := part.name ▸ formed.named
  nonempty := nonempty
  stripes := formed.stripes.sublist part.stripes
  occupied := occupied
  ports := by
    have ports := (part.map_nodes (f := (·.port)) fun _ => rfl).subset
    intro n mem
    obtain ⟨n', mem', same⟩ := List.mem_map.1 (ports (List.mem_map_of_mem mem))
    exact same ▸ formed.ports n' mem'
  nodes := formed.nodes.sublist (part.map_nodes fun _ => rfl)
  addresses := formed.addresses.sublist (part.map_nodes fun _ => rfl)

theorem sum_le : (r.offheapSizes.map (·.toNat)).sum ≤ (c.offheapSizes.map (·.toNat)).sum :=
  (part.offheapSizes.map _).sum_le_sum fun _ _ => Nat.zero_le _

theorem within {limit : Nat} (within : c.Within limit) : r.Within limit where
  total := Nat.le_trans part.sum_le within.total
  sizes := fun size mem =>
    calc size.toNat * r.stripes.length
      _ ≤ size.toNat * c.stripes.length := Nat.mul_le_mul_left _ part.length_stripes_le
      _ ≤ limit := within.sizes size (part.offheapSizes.subset mem)

theorem fits {limits : Limits} (fits : c.Fits limits) : r.Fits limits := fun limited =>
  Nat.lt_of_le_of_lt part.sum_le (fits limited)

/-- What a part needs is never more than what the whole needs. -/
theorem checkCapacity {limits : Limits} (fits : c.Fits limits)
    (afforded : c.checkCapacity limits = .ok ()) : r.checkCapacity limits = .ok () :=
  (checkCapacity_eq_ok_iff (part.fits fits)).2 fun limit limited =>
    part.within ((checkCapacity_eq_ok_iff fits).1 afforded limit limited)

end PartOf

/-! ## Settings -/

theorem map_stripes_of_bare (same : r.bare = c.bare) {β : Type} {f : Stripe → β}
    (plain : ∀ s, f s.bare = f s) : r.stripes.map f = c.stripes.map f := by
  have stripes := congrArg (fun c : Cluster => c.stripes.map f) same
  simp only [bare, List.map_map, Function.comp_def, plain] at stripes
  exact stripes

theorem partOf_of_bare (same : r.bare = c.bare) : r.PartOf c where
  name := congrArg (·.name) same
  stripes := map_stripes_of_bare same (f := (·.name)) (fun _ => rfl) ▸ .refl _
  nodes := by
    have nodes := map_stripes_of_bare same (f := fun s => s.nodes.map Node.bare) fun s => by
      simp [Stripe.bare, Node.bare]
    have nodes := congrArg List.flatten nodes
    rw [← List.flatMap_def, ← List.flatMap_def, ← List.map_flatMap, ← List.map_flatMap] at nodes
    exact nodes ▸ .refl _

theorem wellFormed_of_bare (formed : c.WellFormed) (same : r.bare = c.bare) : r.WellFormed := by
  have sizes := map_stripes_of_bare same (f := fun s => s.nodes.length) fun s =>
    List.length_map _
  refine (partOf_of_bare same).wellFormed formed ?_ fun s mem emptied => ?_
  · intro none
    rw [none] at sizes
    exact formed.nonempty (List.map_eq_nil_iff.1 sizes.symm)
  · have size : s.nodes.length ∈ c.stripes.map fun s => s.nodes.length :=
      sizes ▸ List.mem_map_of_mem mem
    obtain ⟨s', mem', size⟩ := List.mem_map.1 size
    rw [emptied] at size
    exact formed.occupied s' mem' (List.length_eq_zero_iff.1 size)

theorem bare_updateNode? {address : String} {f : Node → Node} (unseen : ∀ n, (f n).bare = n.bare)
    (updated : c.updateNode? address f = some r) : r.bare = c.bare := by
  have inNodes (nodes : List Node) :
      ((updateFirst? (·.address == address) f nodes).getD nodes).map Node.bare =
        nodes.map Node.bare := by
    cases updated : updateFirst? (·.address == address) f nodes with
    | none => rfl
    | some later => exact map_updateFirst? unseen updated
  obtain ⟨stripes, inStripes, rfl⟩ := Option.map_eq_some_iff.1 updated
  refine congrArg (Cluster.mk c.name · ∅) (map_updateFirst? ?_ inStripes)
  exact fun s => congrArg (Stripe.mk s.name) (inNodes s.nodes)

theorem bare_changeSetting {op : SettingOp} {target : SettingTarget} {name : String}
    {value : Option String} (changed : Change.changeSetting c op target name value = .ok r) :
    r.bare = c.bare := by
  cases target with
  | cluster =>
    obtain ⟨update, -, changed⟩ := Outcome.bind_eq_ok.1 changed
    cases changed
    rfl
  | node address =>
    rw [Change.changeSetting] at changed
    split at changed
    · cases changed
    · obtain ⟨update, -, changed⟩ := Outcome.bind_eq_ok.1 changed
      cases changed
      generalize outcome : c.updateNode? address _ = updated
      cases updated with
      | none => rfl
      | some r =>
        refine bare_updateNode? ?_ outcome
        exact fun n => rfl

/-! ## Removals -/

theorem removeNode_eq_ok {stripe address : String}
    (removed : Change.removeNode c stripe address = .ok r) : ∃ before s after,
      c.stripes = before ++ s :: after ∧ c.findStripe? stripe = some s ∧
        r = { c with stripes := before ++ s.without address :: after } := by
  rw [Change.removeNode] at removed
  cases found : c.findStripe? stripe with
  | none =>
    rw [found] at removed
    cases removed
  | some s =>
    rw [found] at removed
    dsimp only at removed
    split at removed
    · cases removed
      obtain ⟨named, before, after, shape, others⟩ := List.find?_eq_some_iff_append.1 found
      refine ⟨before, s, after, shape, rfl, ?_⟩
      have others : ∀ b ∈ before, (b.name == stripe) = false := by simpa using others
      rw [updateStripe?, shape, updateFirst?_append others named]
      rfl
    · cases removed

theorem removeStripe_eq_ok {stripe : String} (removed : Change.removeStripe c stripe = .ok r) :
    (∃ s ∈ c.stripes, s.name = stripe) ∧
      r = { c with stripes := c.stripes.filter (·.name != stripe) } := by
  rw [Change.removeStripe] at removed
  split at removed
  · rename_i found
    cases removed
    rw [findStripe?, List.find?_isSome] at found
    exact ⟨by simpa using found, rfl⟩
  · cases removed

theorem partOf_of_without {before after : List Stripe} {s : Stripe} (address : String)
    (shape : c.stripes = before ++ s :: after) :
    { c with stripes := before ++ s.without address :: after }.PartOf c where
  name := rfl
  stripes := by
    rw [shape, List.map_append, List.map_append]
    exact .refl _
  nodes := by
    refine List.Sublist.map _ ?_
    rw [nodes, nodes, shape, List.flatMap_append, List.flatMap_cons, List.flatMap_append,
      List.flatMap_cons]
    exact (List.Sublist.refl _).append (List.filter_sublist.append (.refl _))

theorem partOf_of_filter (keep : Stripe → Bool) :
    { c with stripes := c.stripes.filter keep }.PartOf c where
  name := rfl
  stripes := List.filter_sublist.map _
  nodes := (List.filter_sublist.flatMap _).map _

/-! ## What a removal can leave behind -/

/-- The check stops at a stripe that has lost its nodes, for nothing before that stripe is wrong. -/
theorem checkStructure_of_emptied (formed : c.WellFormed) {before after : List Stripe}
    {s s' : Stripe} (shape : c.stripes = before ++ s :: after) (named : s'.name = s.name)
    (emptied : s'.nodes = []) :
    { c with stripes := before ++ s' :: after }.checkStructure = .error (.emptyStripe s.name) := by
  have distinct := distinct_seen_iff.2 ⟨formed.stripes, formed.nodes, formed.addresses⟩
  rw [shape, List.foldl_append, List.foldl_cons] at distinct
  have upTo := Seen.distinct_of_foldl Seen.distinct_of_meetStripe distinct
  have start := Seen.distinct_of_foldl Seen.distinct_of_meetNode upTo
  obtain ⟨new, earlier⟩ := Seen.distinct_meetName_iff.1 start
  have complete : ∀ b ∈ before, b.Complete := fun b mem =>
    complete_iff.2 ⟨formed.occupied, formed.ports⟩ b (shape ▸ List.mem_append_left _ mem)
  have passed := (Seen.foldlM_checkStripe_eq_ok_iff Seen.distinct_none).2 ⟨complete, rfl, earlier⟩
  have stopped : (before.foldl Seen.meetStripe Seen.none).checkStripe s' =
      .error (.emptyStripe s.name) := by
    rw [Seen.checkStripe, named, if_neg new, emptied]
    rfl
  rw [checkStructure, if_neg (mt (isEmpty_trim_iff _).1 (not_not.2 formed.named)), if_neg (by simp),
    List.foldlM_append, passed, Outcome.ok_bind, List.foldlM_cons, stopped]
  rfl

theorem checkStructure_of_noStripe (named : ∃ x ∈ c.name.toList, Text.isBlank x = false)
    (none : c.stripes = []) : c.checkStructure = .error .noStripe := by
  rw [checkStructure, if_neg (mt (isEmpty_trim_iff _).1 (not_not.2 named)), none]
  rfl

end Cluster

namespace Change

/-- Removals, and changes of settings. -/
inductive Shrinking : Change → Prop
  | nodeRemoval (stripe address : String) : Shrinking (.nodeRemoval stripe address)
  | stripeRemoval (stripe : String) : Shrinking (.stripeRemoval stripe)
  | setting (op : SettingOp) (target : SettingTarget) (name : String) (value : Option String) :
    Shrinking (.setting op target name value)

/-- A removal takes the last nodes of a stripe, or the last stripe. -/
inductive Vacates (c : Cluster) : Change → StructureFault → Prop
  | stripe {s : Stripe} {address : String} (held : s ∈ c.stripes)
    (alone : ∀ n ∈ s.nodes, n.address = address) :
    Vacates c (.nodeRemoval s.name address) (.emptyStripe s.name)
  | cluster {stripe : String} (alone : ∀ s ∈ c.stripes, s.name = stripe) :
    Vacates c (.stripeRemoval stripe) .noStripe

variable {change : Change} {c r : Cluster}

theorem partOf_of_shrinking (shrinking : change.Shrinking)
    (applied : change.apply (some c) = .ok r) : r.PartOf c := by
  cases shrinking with
  | nodeRemoval stripe address =>
    obtain ⟨before, s, after, shape, -, rfl⟩ := Cluster.removeNode_eq_ok applied
    exact Cluster.partOf_of_without address shape
  | stripeRemoval stripe =>
    obtain ⟨-, rfl⟩ := Cluster.removeStripe_eq_ok applied
    exact Cluster.partOf_of_filter _
  | setting op target name value =>
    exact Cluster.partOf_of_bare (Cluster.bare_changeSetting applied)

theorem checkStructure_of_vacates {fault : StructureFault} (formed : c.WellFormed)
    (vacates : Vacates c change fault) (applied : change.apply (some c) = .ok r) :
    r.checkStructure = .error fault := by
  cases vacates with
  | @stripe s address held alone =>
    obtain ⟨before, s', after, shape, found, rfl⟩ := Cluster.removeNode_eq_ok applied
    have held' : s' ∈ c.stripes := List.mem_of_find?_eq_some found
    have named : s'.name = s.name := by simpa using List.find?_some found
    have same : s' = s := List.inj_on_of_nodup_map formed.stripes held' held named
    subst same
    refine Cluster.checkStructure_of_emptied formed shape rfl (List.filter_eq_nil_iff.2 ?_)
    intro n mem
    simpa using alone n mem
  | cluster alone =>
    obtain ⟨-, rfl⟩ := Cluster.removeStripe_eq_ok applied
    refine Cluster.checkStructure_of_noStripe formed.named (List.filter_eq_nil_iff.2 ?_)
    intro s mem
    simpa using alone s mem

theorem wellFormed_of_not_vacates (formed : c.WellFormed) (shrinking : change.Shrinking)
    (stays : ∀ fault, ¬ Vacates c change fault) (applied : change.apply (some c) = .ok r) :
    r.WellFormed := by
  have part := partOf_of_shrinking shrinking applied
  cases shrinking with
  | nodeRemoval stripe address =>
    obtain ⟨before, s, after, shape, found, rfl⟩ := Cluster.removeNode_eq_ok applied
    refine part.wellFormed formed (by simp) fun b mem => ?_
    rcases List.mem_append.1 mem with mem | mem
    · exact formed.occupied b (shape ▸ List.mem_append_left _ mem)
    · rcases List.mem_cons.1 mem with rfl | mem
      · intro emptied
        have named : s.name = stripe := by simpa using List.find?_some found
        refine stays (.emptyStripe s.name) (named ▸ .stripe (List.mem_of_find?_eq_some found) ?_)
        intro n mem
        simpa using List.filter_eq_nil_iff.1 emptied n mem
      · exact formed.occupied b (shape ▸ List.mem_append_right _ (List.mem_cons_of_mem _ mem))
  | stripeRemoval stripe =>
    obtain ⟨-, rfl⟩ := Cluster.removeStripe_eq_ok applied
    refine part.wellFormed formed ?_ fun b mem => formed.occupied b (List.mem_of_mem_filter mem)
    intro emptied
    refine stays .noStripe (.cluster fun s mem => ?_)
    simpa using List.filter_eq_nil_iff.1 emptied s mem
  | setting op target name value =>
    exact Cluster.wellFormed_of_bare formed (Cluster.bare_changeSetting applied)

end Change

/-- A change that adds nothing leaves a topology within the limits. The topology is well formed too,
unless the change takes the last nodes of a stripe or the last stripe. -/
theorem Processor.validate_of_shrinking (p : Processor) {change : Change} {c r : Cluster}
    (formed : c.checkStructure = .ok ()) (afforded : c.checkCapacity p.limits = .ok ())
    (fits : c.Fits p.limits) (shrinking : change.Shrinking)
    (applied : change.apply (some c) = .ok r) :
    r.checkCapacity p.limits = .ok () ∧
    ((∀ fault, ¬ Change.Vacates c change fault) →
      r.checkStructure = .ok () ∧ p.validate (some c) change = .ok r) ∧
    ∀ fault, Change.Vacates c change fault → r.checkStructure = .error fault ∧
      p.validate (some c) change = .error (.invalidTopology fault.message) := by
  have wellFormed := Cluster.checkStructure_eq_ok_iff.1 formed
  have within := (Change.partOf_of_shrinking shrinking applied).checkCapacity fits afforded
  refine ⟨within, fun stays => ?_, fun fault vacates => ?_⟩
  · have structured := Cluster.checkStructure_eq_ok_iff.2
      (Change.wellFormed_of_not_vacates wellFormed shrinking stays applied)
    exact ⟨structured, Outcome.mapError_eq_ok.2
      (Change.validate_eq_ok.2 ⟨applied, structured, within⟩)⟩
  · have structured := Change.checkStructure_of_vacates wellFormed vacates applied
    refine ⟨structured, ?_⟩
    rw [validate, Change.validate, applied, Outcome.mapError_ok, Outcome.ok_bind, structured]
    rfl

def twoStripes : Cluster where
  name := "c"
  stripes := ["a", "b"].map fun name => ⟨name, [⟨name, name, 1, Dict.empty.insert "main" 4, ∅⟩]⟩
  settings := ∅

def atLimit : Processor := .new ⟨some 8⟩ []

/-- A cluster at its limit can give up a stripe, but not the only node of a stripe. -/
theorem twoStripes_shrinks :
    atLimit.validate (some twoStripes) (.stripeRemoval "b") =
      .ok { twoStripes with stripes := twoStripes.stripes.take 1 } ∧
    atLimit.validate (some twoStripes) (.nodeRemoval "b" "b:1") =
      .error (.invalidTopology (StructureFault.emptyStripe "b").message) := by
  have formed : twoStripes.checkStructure = .ok () := by rfl
  have afforded : twoStripes.checkCapacity atLimit.limits = .ok () := by rfl
  have fits : twoStripes.Fits atLimit.limits := fun _ => by decide
  constructor
  · refine ((atLimit.validate_of_shrinking formed afforded fits (.stripeRemoval "b") rfl).2.1 ?_).2
    intro fault vacates
    cases vacates with
    | cluster alone => exact absurd alone (by decide)
  · have vacates : Change.Vacates twoStripes (.nodeRemoval "b" "b:1") (.emptyStripe "b") :=
      .stripe (s := twoStripes.stripes[1]) (List.getElem_mem _) (by decide)
    exact ((atLimit.validate_of_shrinking formed afforded fits (.nodeRemoval "b" "b:1") rfl).2.2 _
      vacates).2

end Reconfig
