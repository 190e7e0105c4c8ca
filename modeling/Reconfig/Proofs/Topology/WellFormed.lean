/-
Which topologies pass the checks, said without them.

`Cluster.WellFormed` asks for names and addresses that are unique in the whole cluster, and
`Cluster.Within` bounds the off-heap memory. The check of the structure goes through the stripes and
their nodes with what it has met. As long as nothing is met twice, what it has met is all that it
depends on, so the loop over the nodes and the one over the stripes around it are two cases of one
lemma. The check of the memory adds words that wrap, so it finds the total only where
`Cluster.Fits`. `Processor.validate_eq_ok_iff` puts both checks together.

An address is text. The port behind the last colon has digits only, so the text determines the host
name and the port, whatever colons the host name has.
-/
import Mathlib.Algebra.GroupWithZero.Nat
import Mathlib.Data.List.Nodup
import Reconfig.Proofs.Outcome
import Reconfig.Participant.Processor

namespace Reconfig

/-! ## Addresses -/

namespace Node

variable {a b : Node}

/-- Where the node is reached. -/
def endpoint (n : Node) : String × UInt16 := (n.hostname, n.port)

theorem toList_address (n : Node) :
    n.address.toList = n.hostname.toList ++ ':' :: Text.digits n.port.toNat := by
  rw [address, Text.toString_eq_ofList_digits]
  simp

theorem digits_eq_of_colon {host host' : List Char} {m n : Nat}
    (same : host ++ ':' :: Text.digits m = host' ++ ':' :: Text.digits n) :
    Text.digits m = Text.digits n := by
  -- from the end, the digits run up to the first colon
  have back : ∀ (host : List Char) (n : Nat),
      (host ++ ':' :: Text.digits n).reverse.takeWhile Char.isDigit = (Text.digits n).reverse := by
    intro host n
    have digit : ∀ c ∈ (Text.digits n).reverse, c.isDigit = true := fun c mem =>
      Text.isDigit_of_mem_digits (List.mem_reverse.1 mem)
    rw [List.reverse_append, List.reverse_cons, List.append_assoc,
      List.takeWhile_append_of_pos digit]
    exact List.append_nil _
  have reversed := back host m
  rw [same, back host' n] at reversed
  exact (List.reverse_injective reversed).symm

theorem digits_inj {m n : Nat} (same : Text.digits m = Text.digits n) : m = n := by
  have read := congrArg Text.ofDigits? same
  rw [Text.ofDigits?_digits, Text.ofDigits?_digits] at read
  exact Option.some.inj read

theorem address_inj : a.address = b.address ↔ a.endpoint = b.endpoint := by
  constructor
  · intro same
    have chars := congrArg String.toList same
    rw [toList_address, toList_address] at chars
    have ports : a.port.toNat = b.port.toNat := digits_inj (digits_eq_of_colon chars)
    rw [ports, List.append_cancel_right_eq] at chars
    exact Prod.ext (String.toList_inj.1 chars) (UInt16.toNat_inj.1 ports)
  · intro same
    obtain ⟨host, port⟩ := Prod.mk.inj same
    rw [address, address, host, port]

end Node

/-! ## Nothing is met twice -/

/-- The stripe has nodes, and all of them have ports. -/
def Stripe.Complete (s : Stripe) : Prop := s.nodes ≠ [] ∧ ∀ n ∈ s.nodes, n.port ≠ 0

namespace Seen

/-- No name and no address was met twice. -/
structure Distinct (seen : Seen) : Prop where
  stripes : seen.stripes.Nodup
  nodes : seen.nodes.Nodup
  addresses : seen.addresses.Nodup

def meetNode (seen : Seen) (n : Node) : Seen :=
  { seen with nodes := n.name :: seen.nodes, addresses := n.address :: seen.addresses }

def meetName (seen : Seen) (s : Stripe) : Seen := { seen with stripes := s.name :: seen.stripes }

def meetStripe (seen : Seen) (s : Stripe) : Seen := s.nodes.foldl meetNode (seen.meetName s)

variable {seen next : Seen}

theorem distinct_none : none.Distinct := ⟨.nil, .nil, .nil⟩

theorem distinct_meetNode_iff {n : Node} : (seen.meetNode n).Distinct ↔
    n.name ∉ seen.nodes ∧ n.address ∉ seen.addresses ∧ seen.Distinct := by
  constructor
  · rintro ⟨stripes, nodes, addresses⟩
    obtain ⟨newName, nodes⟩ := List.nodup_cons.1 nodes
    obtain ⟨newAddress, addresses⟩ := List.nodup_cons.1 addresses
    exact ⟨newName, newAddress, stripes, nodes, addresses⟩
  · rintro ⟨newName, newAddress, stripes, nodes, addresses⟩
    exact ⟨stripes, List.nodup_cons.2 ⟨newName, nodes⟩, List.nodup_cons.2 ⟨newAddress, addresses⟩⟩

theorem distinct_meetName_iff {s : Stripe} : (seen.meetName s).Distinct ↔
    s.name ∉ seen.stripes ∧ seen.Distinct := by
  constructor
  · rintro ⟨stripes, nodes, addresses⟩
    obtain ⟨newName, stripes⟩ := List.nodup_cons.1 stripes
    exact ⟨newName, stripes, nodes, addresses⟩
  · rintro ⟨newName, stripes, nodes, addresses⟩
    exact ⟨List.nodup_cons.2 ⟨newName, stripes⟩, nodes, addresses⟩

section Loop

variable {α : Type} {check : Seen → α → Except StructureFault Seen} {meet : Seen → α → Seen}
  {fits : α → Prop} {items : List α}

theorem distinct_of_foldl (before : ∀ seen a, (meet seen a).Distinct → seen.Distinct)
    (distinct : (items.foldl meet seen).Distinct) : seen.Distinct := by
  induction items generalizing seen with
  | nil => exact distinct
  | cons a rest ih => exact before seen a (ih distinct)

/-- A loop that stops at what it has met before gets to the end if every item fits and nothing is
met twice, and then it has met just the items. -/
theorem foldlM_eq_ok_iff (before : ∀ seen a, (meet seen a).Distinct → seen.Distinct)
    (each : ∀ seen next a, seen.Distinct →
      (check seen a = .ok next ↔ fits a ∧ next = meet seen a ∧ next.Distinct))
    (distinct : seen.Distinct) : items.foldlM check seen = .ok next ↔
      (∀ a ∈ items, fits a) ∧ next = items.foldl meet seen ∧ next.Distinct := by
  induction items generalizing seen with
  | nil =>
    rw [List.foldlM_nil, Outcome.pure_eq_ok, Except.ok.injEq, List.foldl_nil]
    constructor
    · rintro rfl
      exact ⟨nofun, rfl, distinct⟩
    · rintro ⟨-, rfl, -⟩
      rfl
  | cons a rest ih =>
    rw [List.foldlM_cons, Outcome.bind_eq_ok, List.forall_mem_cons, List.foldl_cons]
    constructor
    · rintro ⟨between, first, later⟩
      obtain ⟨fits, rfl, distinct⟩ := (each _ _ _ distinct).1 first
      obtain ⟨others, rfl, distinct⟩ := (ih distinct).1 later
      exact ⟨⟨fits, others⟩, rfl, distinct⟩
    · rintro ⟨⟨fits, others⟩, rfl, distinct'⟩
      have between := distinct_of_foldl before distinct'
      exact ⟨_, (each _ _ _ distinct).2 ⟨fits, rfl, between⟩,
        (ih between).2 ⟨others, rfl, distinct'⟩⟩

end Loop

theorem checkNode_eq_ok_iff {n : Node} (distinct : seen.Distinct) :
    seen.checkNode n = .ok next ↔
      n.port ≠ 0 ∧ next = seen.meetNode n ∧ next.Distinct := by
  unfold checkNode
  constructor
  · intro checked
    split at checked
    · cases checked
    · rename_i port
      split at checked
      · cases checked
      · rename_i newName
        split at checked
        · cases checked
        · rename_i newAddress
          cases checked
          exact ⟨port, rfl, distinct_meetNode_iff.2 ⟨newName, newAddress, distinct⟩⟩
  · rintro ⟨port, rfl, distinct'⟩
    obtain ⟨newName, newAddress, -⟩ := distinct_meetNode_iff.1 distinct'
    rw [if_neg port, if_neg newName, if_neg newAddress]
    rfl

theorem distinct_of_meetNode (seen : Seen) (n : Node) (distinct : (seen.meetNode n).Distinct) :
    seen.Distinct :=
  (distinct_meetNode_iff.1 distinct).2.2

theorem checkStripe_eq_ok_iff {s : Stripe} (distinct : seen.Distinct) :
    seen.checkStripe s = .ok next ↔ s.Complete ∧ next = seen.meetStripe s ∧ next.Distinct := by
  have loop (start : (seen.meetName s).Distinct) :
      s.nodes.foldlM checkNode (seen.meetName s) = .ok next ↔
        (∀ n ∈ s.nodes, n.port ≠ 0) ∧ next = seen.meetStripe s ∧ next.Distinct :=
    foldlM_eq_ok_iff distinct_of_meetNode (fun _ _ _ distinct => checkNode_eq_ok_iff distinct) start
  unfold checkStripe
  constructor
  · intro checked
    split at checked
    · cases checked
    · rename_i newName
      split at checked
      · cases checked
      · rename_i occupied
        have start := distinct_meetName_iff.2 ⟨newName, distinct⟩
        obtain ⟨ports, rfl, distinct'⟩ := (loop start).1 checked
        exact ⟨⟨fun none => occupied (List.isEmpty_iff.2 none), ports⟩, rfl, distinct'⟩
  · rintro ⟨⟨occupied, ports⟩, rfl, distinct'⟩
    have start := distinct_of_foldl distinct_of_meetNode distinct'
    rw [if_neg (distinct_meetName_iff.1 start).1, if_neg (by simpa using occupied)]
    exact (loop start).2 ⟨ports, rfl, distinct'⟩

theorem distinct_of_meetStripe (seen : Seen) (s : Stripe)
    (distinct : (seen.meetStripe s).Distinct) : seen.Distinct :=
  (distinct_meetName_iff.1 (distinct_of_foldl distinct_of_meetNode distinct)).2

theorem foldlM_checkStripe_eq_ok_iff {stripes : List Stripe} (distinct : seen.Distinct) :
    stripes.foldlM checkStripe seen = .ok next ↔
      (∀ s ∈ stripes, s.Complete) ∧ next = stripes.foldl meetStripe seen ∧ next.Distinct :=
  foldlM_eq_ok_iff distinct_of_meetStripe (fun _ _ _ distinct => checkStripe_eq_ok_iff distinct)
    distinct

/-! ## What is met in a cluster -/

theorem foldl_meetNode (nodes : List Node) (seen : Seen) : nodes.foldl meetNode seen =
    ⟨seen.stripes, (nodes.map (·.name)).reverse ++ seen.nodes,
      (nodes.map (·.address)).reverse ++ seen.addresses⟩ := by
  induction nodes generalizing seen with
  | nil => rfl
  | cons n rest ih =>
    rw [List.foldl_cons, ih, meetNode]
    simp

theorem foldl_meetStripe (stripes : List Stripe) (seen : Seen) : stripes.foldl meetStripe seen =
    ⟨(stripes.map (·.name)).reverse ++ seen.stripes,
      ((stripes.flatMap (·.nodes)).map (·.name)).reverse ++ seen.nodes,
      ((stripes.flatMap (·.nodes)).map (·.address)).reverse ++ seen.addresses⟩ := by
  induction stripes generalizing seen with
  | nil => rfl
  | cons s rest ih =>
    rw [List.foldl_cons, ih, meetStripe, foldl_meetNode, meetName]
    simp

end Seen

/-! ## Well-formed topologies -/

namespace Cluster

variable {c : Cluster}

/-- The cluster and its parts have what they need, and share no name and no address. -/
structure WellFormed (c : Cluster) : Prop where
  named : ∃ character ∈ c.name.toList, Text.isBlank character = false
  nonempty : c.stripes ≠ []
  stripes : (c.stripes.map (·.name)).Nodup
  occupied : ∀ s ∈ c.stripes, s.nodes ≠ []
  ports : ∀ n ∈ c.nodes, n.port ≠ 0
  nodes : (c.nodes.map (·.name)).Nodup
  addresses : c.addresses.Nodup

theorem isEmpty_trim_iff (name : String) : (Text.trim name.toList).isEmpty = true ↔
    ¬ ∃ character ∈ name.toList, Text.isBlank character = false := by
  rw [List.isEmpty_iff, Text.trim_eq_nil_iff]
  simp

theorem distinct_seen_iff : (c.stripes.foldl Seen.meetStripe Seen.none).Distinct ↔
    (c.stripes.map (·.name)).Nodup ∧ (c.nodes.map (·.name)).Nodup ∧ c.addresses.Nodup := by
  rw [Seen.foldl_meetStripe, Seen.none, List.append_nil, List.append_nil, List.append_nil]
  constructor
  · rintro ⟨stripes, nodes, addresses⟩
    exact ⟨List.nodup_reverse.1 stripes, List.nodup_reverse.1 nodes,
      List.nodup_reverse.1 addresses⟩
  · rintro ⟨stripes, nodes, addresses⟩
    exact ⟨List.nodup_reverse.2 stripes, List.nodup_reverse.2 nodes,
      List.nodup_reverse.2 addresses⟩

theorem complete_iff : (∀ s ∈ c.stripes, s.Complete) ↔
    (∀ s ∈ c.stripes, s.nodes ≠ []) ∧ ∀ n ∈ c.nodes, n.port ≠ 0 := by
  rw [nodes, List.forall_mem_flatMap]
  exact forall₂_and

theorem checkStructure_eq_ok_iff : c.checkStructure = .ok () ↔ c.WellFormed := by
  unfold checkStructure
  constructor
  · intro checked
    split at checked
    · cases checked
    · rename_i named
      split at checked
      · cases checked
      · rename_i nonempty
        obtain ⟨seen, checked, -⟩ := Outcome.bind_eq_ok.1 checked
        obtain ⟨complete, rfl, distinct⟩ :=
          (Seen.foldlM_checkStripe_eq_ok_iff Seen.distinct_none).1 checked
        obtain ⟨occupied, ports⟩ := complete_iff.1 complete
        obtain ⟨stripes, nodes, addresses⟩ := distinct_seen_iff.1 distinct
        exact ⟨not_not.1 (mt (isEmpty_trim_iff _).2 named), by simpa using nonempty, stripes,
          occupied, ports, nodes, addresses⟩
  · rintro ⟨named, nonempty, stripes, occupied, ports, nodes, addresses⟩
    have checked := (Seen.foldlM_checkStripe_eq_ok_iff Seen.distinct_none).2
      ⟨complete_iff.2 ⟨occupied, ports⟩, rfl, distinct_seen_iff.2 ⟨stripes, nodes, addresses⟩⟩
    rw [if_neg (mt (isEmpty_trim_iff _).1 (not_not.2 named)), if_neg (by simpa using nonempty),
      checked]
    rfl

/-- A well-formed topology has nodes, and their addresses differ. -/
theorem addresses_of_formed (formed : c.checkStructure = .ok ()) :
    c.addresses ≠ [] ∧ c.addresses.Nodup := by
  obtain ⟨-, nonempty, -, occupied, -, -, addresses⟩ := checkStructure_eq_ok_iff.1 formed
  obtain ⟨s, inside⟩ := List.exists_mem_of_ne_nil _ nonempty
  obtain ⟨n, held⟩ := List.exists_mem_of_ne_nil _ (occupied s inside)
  have shown : n.address ∈ c.addresses :=
    List.mem_map_of_mem (List.mem_flatMap.2 ⟨s, inside, held⟩)
  exact ⟨List.ne_nil_of_mem shown, addresses⟩

/-! ## Topologies within a limit -/

/-- All off-heap memory together stays within the limit, and would do so as well if each stripe had
as much as any one resource. -/
structure Within (c : Cluster) (limit : Nat) : Prop where
  total : (c.offheapSizes.map (·.toNat)).sum ≤ limit
  sizes : ∀ size ∈ c.offheapSizes, size.toNat * c.stripes.length ≤ limit

/-- A limit bounds the total, and the sizes add up to less than what the total can hold. -/
def Fits (c : Cluster) (limits : Limits) : Prop :=
  limits.maxOffheap ≠ none → (c.offheapSizes.map (·.toNat)).sum < 2 ^ 64

theorem toNat_foldl_add (sizes : List UInt64) (start : UInt64) :
    (sizes.foldl (· + ·) start).toNat = (start.toNat + (sizes.map (·.toNat)).sum) % 2 ^ 64 := by
  induction sizes generalizing start with
  | nil => exact (Nat.mod_eq_of_lt start.toNat_lt).symm
  | cons size rest ih =>
    rw [List.foldl_cons, ih, UInt64.toNat_add, Nat.mod_add_mod, List.map_cons, List.sum_cons,
      Nat.add_assoc]

theorem foldl_add_totals (nodes : List Node) (start : UInt64) :
    (nodes.map (·.offheapTotal)).foldl (· + ·) start =
      (nodes.flatMap (·.offheap.values)).foldl (· + ·) start := by
  induction nodes generalizing start with
  | nil => rfl
  | cons n rest ih =>
    rw [List.map_cons, List.foldl_cons, ih, List.flatMap_cons, List.foldl_append]
    congr 1
    refine UInt64.toNat_inj.1 ?_
    rw [UInt64.toNat_add, Node.offheapTotal, toNat_foldl_add, toNat_foldl_add, UInt64.toNat_zero,
      Nat.zero_add, Nat.add_mod_mod]

theorem toNat_offheapTotal (c : Cluster) :
    c.offheapTotal.toNat = (c.offheapSizes.map (·.toNat)).sum % 2 ^ 64 := by
  rw [offheapTotal, nodes, foldl_add_totals, toNat_foldl_add, UInt64.toNat_zero, Nat.zero_add]
  rfl

/-- A cluster that has resources has stripes. -/
theorem size_le_stripeShare_iff {size : UInt64} (mem : size ∈ c.offheapSizes) (limit : Nat) :
    size.toNat ≤ c.stripeShare limit ↔ size.toNat * c.stripes.length ≤ limit := by
  obtain ⟨n, held, -⟩ := List.mem_flatMap.1 mem
  obtain ⟨s, inside, -⟩ := List.mem_flatMap.1 held
  have positive : 0 < c.stripes.length := List.length_pos_of_mem inside
  rw [stripeShare, Nat.max_eq_left positive, Nat.le_div_iff_mul_le positive]

theorem checkCapacity_eq_ok_iff {limits : Limits} (fits : c.Fits limits) :
    c.checkCapacity limits = .ok () ↔
      ∀ limit, limits.maxOffheap = some limit → c.Within limit.toNat := by
  unfold checkCapacity
  cases limited : limits.maxOffheap with
  | none => simp
  | some limit =>
    have total : c.offheapTotal.toNat = (c.offheapSizes.map (·.toNat)).sum := by
      rw [toNat_offheapTotal, Nat.mod_eq_of_lt (fits (limited ▸ Option.some_ne_none limit))]
    simp only [Option.some.injEq, forall_eq', UInt64.lt_iff_toNat_lt, total]
    have searched :
        c.offheapSizes.find? (fun size => decide (c.stripeShare limit.toNat < size.toNat)) = none ↔
          ∀ size ∈ c.offheapSizes, size.toNat * c.stripes.length ≤ limit.toNat := by
      rw [List.find?_eq_none]
      refine forall₂_congr fun size mem => ?_
      rw [decide_eq_true_eq, Nat.not_lt, size_le_stripeShare_iff mem]
    constructor
    · intro checked
      split at checked
      · cases checked
      · rename_i enough
        split at checked
        · cases checked
        · rename_i none
          exact ⟨Nat.not_lt.1 enough, searched.1 none⟩
    · rintro ⟨enough, sizes⟩
      rw [if_neg (Nat.not_lt.2 enough), searched.2 sizes]

end Cluster

/-! ## Accepted changes -/

/-- A change that is accepted applies, and its result may be. -/
theorem Change.validate_eq_ok {change : Change} {current : Option Cluster} {limits : Limits}
    {result : Cluster} : change.validate current limits = .ok result ↔
    change.apply current = .ok result ∧ result.checkStructure = .ok () ∧
      result.checkCapacity limits = .ok () := by
  simp only [validate, Outcome.bind_eq_ok, Outcome.mapError_eq_ok, Outcome.pure_eq_ok,
    Except.ok.injEq]
  constructor
  · rintro ⟨_, applied, ⟨⟨⟩, formed, ⟨⟨⟩, afforded, rfl⟩⟩⟩
    exact ⟨applied, formed, afforded⟩
  · rintro ⟨applied, formed, afforded⟩
    exact ⟨result, applied, (), formed, (), afforded, rfl⟩

/-- A change is valid just where it applies and its result is well formed and within the limit, if
there is one. The addresses of a topology differ just where the pairs of host name and port do. -/
theorem Processor.validate_eq_ok_iff (p : Processor) (current : Option Cluster) (change : Change)
    (result : Cluster) (fits : result.Fits p.limits) :
    (p.validate current change = .ok result ↔ change.apply current = .ok result ∧
      result.WellFormed ∧ ∀ limit, p.limits.maxOffheap = some limit → result.Within limit.toNat) ∧
    (result.addresses.Nodup ↔ (result.nodes.map Node.endpoint).Nodup) := by
  refine ⟨?_, ?_⟩
  · rw [validate, Outcome.mapError_eq_ok, Change.validate_eq_ok]
    rw [Cluster.checkStructure_eq_ok_iff, Cluster.checkCapacity_eq_ok_iff fits]
  · rw [Cluster.addresses, List.Nodup, List.pairwise_map, List.Nodup, List.pairwise_map]
    simp only [ne_eq, Node.address_inj]

/-- The node has as much as the limit allows, and ends at the last port. -/
def loneNode : Cluster where
  name := "c"
  stripes := [⟨"a", [⟨"n", "h", 65535, Dict.empty.insert "main" 8, ∅⟩]⟩]
  settings := ∅

theorem loneNode_validate :
    loneNode.Fits ⟨some 8⟩ ∧
    (Processor.new ⟨some 8⟩ []).validate none (.activation loneNode) = .ok loneNode ∧
    loneNode.Within 8 := by
  have fits : loneNode.Fits ⟨some 8⟩ := fun _ => by decide
  have valid : (Processor.new ⟨some 8⟩ []).validate none (.activation loneNode) =
      .ok loneNode := by rfl
  have exact := (Processor.validate_eq_ok_iff (.new ⟨some 8⟩ []) none
    (.activation loneNode) loneNode fits).1
  exact ⟨fits, valid, (exact.1 valid).2.2 8 rfl⟩

end Reconfig
