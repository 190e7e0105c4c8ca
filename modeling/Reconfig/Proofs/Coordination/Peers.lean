/-
The nodes that an operator finds beside a node.

An operator asks a node for its peers, and is told the nodes of the topology in effect there.
That topology is the result of a request that the node once held, so it is well formed, and no
node stands in it twice.
-/
import Reconfig.Proofs.Coordination.Outcomes
import Reconfig.Proofs.Participant.Replay
import Reconfig.Proofs.Topology.WellFormed

namespace Reconfig

/-! ## The topology in effect -/

namespace History.Sound

variable {limits : Limits} {h : History} {c : Cluster}

theorem topology_formed (sound : Sound limits h) (newest : h.topology = some c) :
    c.checkStructure = .ok () := by
  obtain ⟨d, committed, rfl⟩ := Option.map_eq_some_iff.1 newest
  exact (sound.formed d (List.mem_filter.1 (List.mem_of_mem_head? committed)).1).1

end History.Sound

namespace Participant

variable {p : Participant} {h : History} {limits : Limits} {accepted : List Prepare} {c : Cluster}

/-- A node starts with its committed topology in effect. -/
theorem runtime_of_start {name : String} {store : Store} {processor : Processor}
    (started : start name store processor = .ok p) :
    p.committedTopology = .ok p.runtimeTopology := by
  obtain ⟨written, -, resumed⟩ := Outcome.bind_eq_ok.1 started
  obtain ⟨state, read, resumed⟩ := Outcome.bind_eq_ok.1 resumed
  obtain ⟨committed, topology, resumed⟩ := Outcome.bind_eq_ok.1 resumed
  cases resumed
  exact Outcome.bind_eq_ok.2 ⟨state, read, topology⟩

/-- A message brings only the result of a request of the node into effect. -/
theorem Settled.runtime_handle (settled : Settled limits accepted p h) (m : Message)
    (now : Timestamp) : (p.handle m now).1.runtimeTopology = p.runtimeTopology ∨
      ∃ d ∈ h, (p.handle m now).1.runtimeTopology = some d.result := by
  have handled := handled settled.keeps (settled.limits ▸ settled.sound) m now
  cases answer : p.handle m now with
  | mk next outcome =>
  rw [answer] at handled
  cases handled with
  | refused r =>
    by_cases fits : ∀ d, ¬ p.Overflows m now d
    · exact .inl (settled.runtime_of_refused answer fits)
    · obtain ⟨d, overflows⟩ := not_forall_not.1 fits
      obtain ⟨q, _, refused, -, runtime⟩ := overflows.handle_eq settled
      obtain ⟨rfl, -⟩ := Prod.mk.inj (answer.symm.trans refused)
      exact .inr ⟨d, (settled.request?_eq_some.1 overflows.asked).1, runtime⟩
  | accepted accepts =>
    cases accepts with
    | @prepare _ m =>
      have processor := p.processor_prepare m now
      rw [answer] at processor
      exact .inl (congrArg Processor.runtime processor)
    | close closing fence inFlight =>
      obtain ⟨kind, closes, rfl⟩ := Message.closes?_of_closing? closing
      rw [settled.runtime_of_closed inFlight closes (Message.target_ne_prepared closing) fence
        answer]
      split
      · exact .inr ⟨_, List.mem_cons_self, rfl⟩
      · exact .inl rfl

theorem Settled.formed_of_start {name : String} {store : Store} {processor : Processor}
    (settled : Settled limits accepted p h) (started : start name store processor = .ok p)
    (effect : p.runtimeTopology = some c) : c.checkStructure = .ok () := by
  have committed := runtime_of_start started
  rw [settled.committedTopology_eq] at committed
  split at committed
  · exact settled.sound.topology_formed ((Except.ok.inj committed).trans effect)
  · cases committed

/-- The topology in effect on a node is well formed. -/
theorem Lived.runtime_formed (lived : Lived limits accepted p)
    (effect : p.runtimeTopology = some c) : c.checkStructure = .ok () := by
  induction lived with
  | started blank limited started =>
    exact (Settled.of_start blank started).formed_of_start started effect
  | @handled accepted p past m now storable ih =>
    obtain ⟨h, settled⟩ := past.settled
    rcases settled.runtime_handle m now with same | ⟨d, mem, result⟩
    · exact ih (same.symm.trans effect)
    · obtain rfl := Option.some.inj (result.symm.trans effect)
      exact (settled.sound.formed d mem).1
  | restarted past reopened limited started =>
    obtain ⟨h, settled⟩ := past.settled
    exact (settled.restart reopened limited started).formed_of_start started effect

end Participant

/-! ## Peers -/

theorem filterOnline_filterOnline (nodes : List (Address × LogicalState)) :
    filterOnline (filterOnline nodes) = filterOnline nodes := by
  simp [filterOnline, List.filter_filter]

namespace Fleet

variable {f g : Fleet} {node : Address} {nodes : List Address} {c : Cluster}
  {peers : List (Address × LogicalState)}

theorem map_logicalStates (f : Fleet) (nodes : List Address) :
    (f.logicalStates nodes).map (·.1) = nodes := by
  rw [logicalStates, List.map_map]
  exact List.map_id nodes

theorem map_filterOnline (online : ∀ node ∈ nodes, (f.logicalState node).isOnline = true) :
    (filterOnline (f.logicalStates nodes)).map (·.1) = nodes := by
  have all : filterOnline (f.logicalStates nodes) = f.logicalStates nodes :=
    List.filter_eq_self.2 (List.forall_mem_map.2 online)
  rw [all, map_logicalStates]

theorem runtimeCluster_eq_ok : f.runtimeCluster node = .ok c ↔ ∃ p upcoming,
    f.member? node = some p ∧ p.upcomingTopology = .ok upcoming ∧ p.runtimeTopology = some c := by
  unfold runtimeCluster view topology
  cases f.member? node with
  | none => simp
  | some p =>
    cases upcoming : p.upcomingTopology with
    | error e => simp [Participant.topologyView, upcoming]
    | ok t => cases effect : p.runtimeTopology <;> simp [Participant.topologyView, upcoming, effect]

theorem onlineRuntimePeers_eq_ok : f.onlineRuntimePeers node = .ok peers ↔ ∃ c,
    f.runtimeCluster node = .ok c ∧
      filterOnline (f.logicalStates (c.addresses.map Address.mk)) = peers := by
  unfold onlineRuntimePeers runtimePeersStatus runtimePeers
  cases f.runtimeCluster node with
  | error e => simp
  | ok c => simp

/-- The addresses that a node in a state that it can come to has in effect differ. -/
theorem formed_of_runtimeCluster (lived : ∀ nodes, f.Lived nodes)
    (found : f.runtimeCluster node = .ok c) : c.addresses ≠ [] ∧ c.addresses.Nodup := by
  obtain ⟨p, _, member, -, effect⟩ := runtimeCluster_eq_ok.1 found
  obtain ⟨_, _, past⟩ := lived [node] node List.mem_cons_self p member
  exact Cluster.addresses_of_formed (past.runtime_formed effect)

theorem peers_nodup (lived : ∀ nodes, f.Lived nodes)
    (found : f.onlineRuntimePeers node = .ok peers) : (peers.map (·.1)).Nodup := by
  obtain ⟨c, runtime, rfl⟩ := onlineRuntimePeers_eq_ok.1 found
  have distinct : (c.addresses.map Address.mk).Nodup :=
    (formed_of_runtimeCluster lived runtime).2.map fun _ _ same => congrArg Address.text same
  have within := (List.filter_sublist (p := fun entry => entry.2.isOnline)
    (l := f.logicalStates (c.addresses.map Address.mk))).map (·.1)
  rw [map_logicalStates] at within
  exact distinct.sublist within

/-- The peers that are found are the nodes of the topology that are online. -/
theorem mem_peers (found : f.onlineRuntimePeers node = .ok peers)
    (runtime : f.runtimeCluster node = .ok c) {other : Address} : other ∈ peers.map (·.1) ↔
      other ∈ c.addresses.map Address.mk ∧ (f.logicalState other).isOnline = true := by
  obtain ⟨_, runtime', rfl⟩ := onlineRuntimePeers_eq_ok.1 found
  cases runtime.symm.trans runtime'
  constructor
  · intro called
    obtain ⟨entry, kept, rfl⟩ := List.mem_map.1 called
    obtain ⟨listed, online⟩ := List.mem_filter.1 kept
    obtain ⟨other, mem, rfl⟩ := List.mem_map.1 listed
    exact ⟨mem, online⟩
  · rintro ⟨mem, online⟩
    exact List.mem_map.2 ⟨(other, f.logicalState other),
      List.mem_filter.2 ⟨List.mem_map_of_mem mem, online⟩, rfl⟩

theorem filterOnline_peers (found : f.onlineRuntimePeers node = .ok peers) :
    filterOnline peers = peers := by
  obtain ⟨c, -, rfl⟩ := onlineRuntimePeers_eq_ok.1 found
  exact filterOnline_filterOnline _

end Fleet

end Reconfig
