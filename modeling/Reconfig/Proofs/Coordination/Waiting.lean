/-
A wait ends in time, with the nodes that never came back, unless the clock cannot show its end.

The rounds come at multiples of the interval and the last one at the latest when the time is up.
A round asks the nodes that showed no target state in any round before it, so a node is dropped by
its first target state, and what it shows later is not seen. `Awaited` is what a wait has come to
after some rounds; a round keeps it, and the wait goes on for as long as it lies before the end.
-/
import Mathlib.Algebra.Order.Floor.Div
import Reconfig.Coordination.Restart
import Reconfig.Proofs.Json.Canonical

namespace Reconfig

theorem mem_distinctNodes_iff {nodes : List Address} {node : Address} :
    node ∈ distinctNodes nodes ↔ node ∈ nodes := by
  rw [distinctNodes, List.mem_map]
  constructor
  · rintro ⟨key, key_mem, rfl⟩
    obtain ⟨entry, entry_mem, rfl⟩ := Dict.mem_keys_ofList.1 key_mem
    obtain ⟨node, node_mem, rfl⟩ := List.mem_map.1 entry_mem
    exact node_mem
  · intro mem
    exact ⟨node.text, Dict.mem_keys_ofList.2 ⟨_, List.mem_map.2 ⟨node, mem, rfl⟩, rfl⟩, rfl⟩

theorem sorted_distinctNodes (nodes : List Address) :
    (distinctNodes nodes).Pairwise fun a b => a.text < b.text :=
  List.pairwise_map.2 (List.pairwise_map.2 (Dict.sorted _))

namespace WaitEnd

variable (probe : Probe) (targets : List LogicalState) (interval limit : Nat)
  (nodes : List Address)

/-- The nodes that showed no target state in the rounds. -/
def unseen (rounds : List Round) : List Address :=
  nodes.filter fun node => rounds.all fun r => !targets.contains (probe r.time node)

theorem mem_unseen_iff {rounds : List Round} {node : Address} :
    node ∈ unseen probe targets nodes rounds ↔
      node ∈ nodes ∧ ∀ r ∈ rounds, probe r.time node ∉ targets := by
  simp [unseen]

/-- One more round leaves those of the nodes that show no target state in it. -/
theorem unseen_cons (r : Round) (rounds : List Round) :
    unseen probe targets nodes (r :: rounds) =
      absent probe targets r.time (unseen probe targets nodes rounds) := by
  rw [unseen, unseen, absent, List.filter_filter]
  rfl

/-- The time of the round that comes after the given number of rounds. -/
def roundTime (count : Nat) : Nat := min (count * interval) limit

/-- The rounds of a wait: each asks the nodes that are unseen before it, at its time. -/
def Awaited : List Round → Prop
  | [] => True
  | r :: earlier =>
    r.time = roundTime interval limit earlier.length ∧
      r.asked = unseen probe targets nodes earlier ∧ Awaited earlier

variable {probe targets interval limit nodes}

theorem roundTime_succ {count : Nat} (early : roundTime interval limit count < limit) :
    roundTime interval limit count + min interval (limit - roundTime interval limit count) =
      roundTime interval limit (count + 1) := by
  simp only [roundTime, Nat.succ_mul] at early ⊢
  omega

namespace Awaited

/-- Every round of a wait asks the nodes that are unseen in the rounds before it. -/
theorem split {later earlier : List Round} {r : Round}
    (awaited : Awaited probe targets interval limit nodes (later ++ r :: earlier)) :
    r.time = roundTime interval limit earlier.length ∧
      r.asked = unseen probe targets nodes earlier := by
  induction later with
  | nil => exact ⟨awaited.1, awaited.2.1⟩
  | cons _ later ih => exact ih awaited.2.2

theorem time_le {rounds : List Round}
    (awaited : Awaited probe targets interval limit nodes rounds) :
    ∀ r ∈ rounds, r.time ≤ limit := by
  intro r mem
  obtain ⟨later, earlier, rfl⟩ := List.append_of_mem mem
  rw [awaited.split.1]
  exact Nat.min_le_right _ _

/-- As many rounds lie before the end as whole or begun intervals do. -/
theorem length_le {rounds : List Round}
    (awaited : Awaited probe targets interval limit nodes rounds) (positive : 0 < interval)
    (early : ∀ r ∈ rounds, r.time < limit) : rounds.length ≤ limit ⌈/⌉ interval := by
  cases rounds with
  | nil => exact Nat.zero_le _
  | cons r earlier =>
    have before : r.time < limit := early r List.mem_cons_self
    rw [awaited.1, roundTime] at before
    have room : ¬ limit ≤ interval * earlier.length := by
      rw [Nat.mul_comm]
      omega
    rw [← ceilDiv_le_iff_le_mul positive] at room
    rw [List.length_cons]
    omega

end Awaited

/-- How a wait ends: every round but the last lies before the end, and the last one too if no
node is missing after it. -/
structure Ends (probe : Probe) (targets : List LogicalState) (interval limit : Nat)
    (nodes : List Address) (w : WaitEnd) : Prop where
  awaited : Awaited probe targets interval limit nodes w.rounds
  missing : w.missing = unseen probe targets nodes w.rounds
  last : ∃ last before, w.rounds = last :: before ∧ (∀ r ∈ before, r.time < limit) ∧
    (w.missing ≠ [] → last.time = limit)

theorem Ends.split {w : WaitEnd} (ends : Ends probe targets interval limit nodes w)
    {later earlier : List Round} {r : Round} (whole : w.rounds = later ++ r :: earlier) :
    r.time = roundTime interval limit earlier.length ∧
      r.asked = unseen probe targets nodes earlier := by
  have awaited := ends.awaited
  rw [whole] at awaited
  exact awaited.split

theorem poll_ends (positive : 0 < interval) (missing : List Address) (earlier : List Round)
    (time : Nat) (awaited : Awaited probe targets interval limit nodes earlier)
    (left : missing = unseen probe targets nodes earlier)
    (early : ∀ r ∈ earlier, r.time < limit)
    (now : time = roundTime interval limit earlier.length) :
    Ends probe targets interval limit nodes
      (poll probe targets interval limit missing earlier time) := by
  induction missing, earlier, time using poll.induct probe targets interval limit with
  | case1 missing earlier time after done =>
    have still : after = unseen probe targets nodes (⟨time, missing⟩ :: earlier) := by
      rw [unseen_cons, ← left]
    rw [poll, if_pos done]
    refine ⟨⟨now, left, awaited⟩, still, _, _, rfl, early, fun missed => ?_⟩
    have ended : after = [] ∨ limit ≤ time := by simpa using done
    exact Nat.le_antisymm (now ▸ Nat.min_le_right _ _) (ended.resolve_left missed)
  | case2 missing earlier time rounds after goesOn step positive ih =>
    have still : after = unseen probe targets nodes rounds := by
      rw [unseen_cons, ← left]
    have soon : time < limit := by
      simp only [Bool.or_eq_true, decide_eq_true_eq, not_or] at goesOn
      omega
    rw [poll, if_neg goesOn, if_pos positive]
    refine ih ⟨now, left, awaited⟩ still ?_ ?_
    · exact List.forall_mem_cons.2 ⟨soon, early⟩
    · rw [List.length_cons, ← roundTime_succ (now ▸ soon), ← now]
  | case3 missing earlier time after goesOn step still =>
    -- time stands still only at the end or with an interval of no length
    simp only [Bool.or_eq_true, decide_eq_true_eq, not_or] at goesOn
    omega

/-- What a wait comes to. The rounds stand with the last one first. -/
structure Exact (probe : Probe) (targets : List LogicalState) (interval limit : Nat)
    (nodes : List Address) (w : WaitEnd) : Prop where
  rounds_le : w.rounds.length ≤ limit ⌈/⌉ interval + 1
  times : ∀ later r earlier, w.rounds = later ++ r :: earlier →
    r.time = min (earlier.length * interval) limit
  inTime : ∀ r ∈ w.rounds, r.time ≤ limit
  asks : ∀ later r earlier, w.rounds = later ++ r :: earlier → ∀ node,
    node ∈ r.asked ↔ node ∈ nodes ∧ ∀ r' ∈ earlier, probe r'.time node ∉ targets
  asksAtEnd : w.missing ≠ [] → ∃ last before, w.rounds = last :: before ∧ limit ≤ last.time ∧
    w.missing ⊆ last.asked ∧ ∀ r ∈ before, r.time < limit
  missing_iff : ∀ node,
    node ∈ w.missing ↔ node ∈ nodes ∧ ∀ r ∈ w.rounds, probe r.time node ∉ targets
  sorted : w.missing.Pairwise fun a b => a.text < b.text

end WaitEnd

open WaitEnd

theorem exact_of_ends {probe : Probe} {targets : List LogicalState} {interval limit : Nat}
    {nodes : List Address} {w : WaitEnd} (positive : 0 < interval)
    (ends : Ends probe targets interval limit (distinctNodes nodes) w) :
    Exact probe targets interval limit nodes w := by
  obtain ⟨last, before, shape, early, atEnd⟩ := ends.last
  constructor
  · have awaited : Awaited probe targets interval limit (distinctNodes nodes) before := by
      have := ends.awaited
      rw [shape] at this
      exact this.2.2
    rw [shape, List.length_cons]
    exact Nat.succ_le_succ (awaited.length_le positive early)
  · exact fun later r earlier whole => (ends.split whole).1
  · exact ends.awaited.time_le
  · intro later r earlier whole node
    rw [(ends.split whole).2, mem_unseen_iff, mem_distinctNodes_iff]
  · intro missed
    refine ⟨last, before, shape, Nat.le_of_eq (atEnd missed).symm, fun node mem => ?_, early⟩
    have asked : last.asked = unseen probe targets (distinctNodes nodes) before :=
      (ends.split (show _ = [] ++ last :: before from shape)).2
    rw [ends.missing, shape, unseen_cons, ← asked] at mem
    exact List.mem_of_mem_filter mem
  · intro node
    rw [ends.missing, mem_unseen_iff, mem_distinctNodes_iff]
  · rw [ends.missing]
    exact (sorted_distinctNodes nodes).filter _

/-- A wait that the clock can time is over when its time is up. It misses just the nodes that showed
no target state in any round, and asks them once more at the end before it gives them up. A wait
that would end after the clock does asks no node at all. -/
theorem waitTicks_exact (probe : Probe) {interval : Nat} (positive : 0 < interval)
    (nodes : List Address) (targets : List LogicalState) (clockEnd limit : Nat) :
    (limit ≤ clockEnd → ∃ w, waitTicks probe interval nodes targets clockEnd limit = some w ∧
      Exact probe targets interval limit nodes w) ∧
    (clockEnd < limit → waitTicks probe interval nodes targets clockEnd limit = none) := by
  have ends : Ends probe targets interval limit (distinctNodes nodes)
      (poll probe targets interval limit (distinctNodes nodes) [] 0) := by
    refine poll_ends positive _ [] 0 trivial ?_ (List.forall_mem_nil _) ?_
    · simp [unseen]
    · simp [roundTime]
  constructor
  · intro timed
    exact ⟨_, if_neg (Nat.not_lt.2 timed), exact_of_ends positive ends⟩
  · intro late
    exact if_pos late

/-- No clock shows the end of the longest wait that can be written. -/
example (probe : Probe) (interval : Span) (nodes : List Address) (targets : List LogicalState) :
    waitFor probe interval nodes targets (.ofSeconds 18446744073709551615) = none := by
  rw [waitFor, waitTicks, if_pos]
  decide

/-- Of two nodes that are listed one is up for a moment, which a round meets. -/
def flicker : Probe := fun time node => if node.text = "a" ∧ time = 6 then .active else .starting

theorem flicker_exact :
    (∃ w, waitTicks flicker 3 [⟨"b"⟩, ⟨"a"⟩, ⟨"b"⟩] backStates 7 7 = some w ∧
      Exact flicker backStates 3 7 [⟨"b"⟩, ⟨"a"⟩, ⟨"b"⟩] w) ∧
    waitTicks flicker 3 [⟨"b"⟩, ⟨"a"⟩, ⟨"b"⟩] backStates 7 8 = none :=
  ⟨(waitTicks_exact flicker (by decide) _ _ 7 7).1 (by decide),
    (waitTicks_exact flicker (by decide) _ _ 7 8).2 (by decide)⟩

/-- The rounds come at 0, 3 and 6 and once more when the time is up. -/
example : waitTicks flicker 3 [⟨"b"⟩, ⟨"a"⟩, ⟨"b"⟩] backStates 7 7 =
    some ⟨[⟨"b"⟩], [⟨7, [⟨"b"⟩]⟩, ⟨6, [⟨"a"⟩, ⟨"b"⟩]⟩, ⟨3, [⟨"a"⟩, ⟨"b"⟩]⟩,
      ⟨0, [⟨"a"⟩, ⟨"b"⟩]⟩]⟩ := by
  cbv

end Reconfig
