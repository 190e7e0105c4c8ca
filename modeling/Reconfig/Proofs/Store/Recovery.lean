/-
Opening a log again, also one whose file was cut.

A log writes one frame for each change-set that writes anything. Wherever its file is
cut, opening it finds the frames that lie wholly inside what is left, and nothing else:
the log is then the one that recorded only the first change-sets. So cuts and commits
can follow each other in any order.
-/
import Mathlib.Algebra.GroupWithZero.Nat
import Reconfig.Proofs.Store.Frames
import Reconfig.Proofs.Store.ReadBack
import Reconfig.Store.Backend

namespace Reconfig

theorem Frame.fits_next (head : List UInt8) {sequence : Nat} {payload : List UInt8}
    (counted : sequence < 2 ^ 64) (small : payload.length ≤ payloadLimit) :
    (next head sequence payload).Fits :=
  ⟨counted, small, Digest.length_blake3 _⟩

/-- The change-set makes a frame, which can be written and read. -/
structure ChangeSet.Framed (c : ChangeSet) : Prop where
  filled : c.isEmpty = false
  small : c.toJson.bytes.length ≤ Frame.payloadLimit
  reads : c.ReadsBack

namespace ChangeLog

/-- The frame that holds the change-set. -/
def frame (log : ChangeLog) (c : ChangeSet) : Frame :=
  Frame.next log.head log.sequence c.toJson.bytes

/-- The log with the frame of the change-set at its end. -/
def record (log : ChangeLog) (c : ChangeSet) : ChangeLog := log.extend (log.frame c) c

def recordAll (log : ChangeLog) (cs : List ChangeSet) : ChangeLog := cs.foldl record log

/-- The frames of change-sets that are recorded one after the other. -/
def frames (log : ChangeLog) : List ChangeSet → List Frame
  | [] => []
  | c :: cs => log.frame c :: (log.record c).frames cs

variable {log : ChangeLog} {c : ChangeSet}

/-! ## What is recorded -/

theorem commit_eq_ok {next : ChangeLog} : log.commit c = .ok next ↔
    c.isEmpty = true ∧ next = log ∨
      c.isEmpty = false ∧ c.toJson.bytes.length ≤ Frame.payloadLimit ∧ next = log.record c := by
  unfold commit
  by_cases empty : c.isEmpty = true
  · simp [empty, eq_comm]
  · dsimp only
    rw [if_neg empty]
    rw [Bool.not_eq_true] at empty
    by_cases large : Frame.payloadLimit < c.toJson.bytes.length
    · have exceeds : ¬ c.toJson.bytes.length ≤ Frame.payloadLimit := Nat.not_le.2 large
      rw [if_pos large]
      simp [empty, exceeds]
    · have fits : c.toJson.bytes.length ≤ Frame.payloadLimit := Nat.not_lt.1 large
      rw [if_neg large]
      simp [empty, record, frame, eq_comm, fits]

theorem file_recordAll (log : ChangeLog) (cs : List ChangeSet) :
    (log.recordAll cs).file = log.file ++ (log.frames cs).flatMap Frame.bytes := by
  induction cs generalizing log with
  | nil => simp [recordAll, frames]
  | cons c cs ih =>
    show ((log.record c).recordAll cs).file = _
    rw [ih, frames, List.flatMap_cons, ← List.append_assoc]
    rfl

theorem sequence_recordAll (log : ChangeLog) (cs : List ChangeSet) :
    (log.recordAll cs).sequence = log.sequence + cs.length := by
  induction cs generalizing log with
  | nil => rfl
  | cons c cs ih =>
    show ((log.record c).recordAll cs).sequence = _
    have : (log.record c).sequence = log.sequence + 1 := rfl
    rw [ih, this, List.length_cons]
    omega

theorem space_recordAll (log : ChangeLog) (cs : List ChangeSet) :
    (log.recordAll cs).space = cs.foldl (fun space c => c.applyTo space) log.space := by
  induction cs generalizing log with
  | nil => rfl
  | cons c cs ih => exact ih (log.record c)

theorem recordAll_append (log : ChangeLog) (cs more : List ChangeSet) :
    log.recordAll (cs ++ more) = (log.recordAll cs).recordAll more :=
  List.foldl_append

theorem length_frames (log : ChangeLog) (cs : List ChangeSet) :
    (log.frames cs).length = cs.length := by
  induction cs generalizing log with
  | nil => rfl
  | cons c cs ih => rw [frames, List.length_cons, List.length_cons, ih]

/-- A log of frames is at least as long as their number. -/
theorem length_le_flatMap (frames : List Frame) :
    frames.length ≤ (frames.flatMap Frame.bytes).length := by
  induction frames with
  | nil => exact Nat.le_refl _
  | cons f frames ih =>
    have := f.length_bytes_pos
    rw [List.length_cons, List.flatMap_cons, List.length_append]
    omega

theorem length_le_file (log : ChangeLog) (cs : List ChangeSet) :
    cs.length ≤ (log.recordAll cs).file.length := by
  have each := length_le_flatMap (log.frames cs)
  rw [length_frames] at each
  rw [file_recordAll, List.length_append]
  omega

theorem length_flatMap_frames (log : ChangeLog) (cs : List ChangeSet)
    (framed : ∀ c ∈ cs, c.Framed) (counted : log.sequence + cs.length ≤ 2 ^ 64) :
    ((log.frames cs).flatMap Frame.bytes).length =
      (cs.map fun c => Frame.overhead + c.toJson.bytes.length).sum := by
  induction cs generalizing log with
  | nil => rfl
  | cons c cs ih =>
    rw [List.length_cons] at counted
    have fits : (log.frame c).Fits :=
      Frame.fits_next _ (by omega) (framed c List.mem_cons_self).small
    have rest := ih (log.record c) (fun c mem => framed c (List.mem_cons_of_mem _ mem))
      (by rw [show (log.record c).sequence = log.sequence + 1 from rfl]; omega)
    rw [frames, List.flatMap_cons, List.length_append, Frame.length_bytes fits, rest,
      List.map_cons, List.sum_cons]
    rfl

/-! ## What is read -/

theorem replay_eq (log : ChangeLog) (s : List UInt8) : log.replay s =
    match Frame.read s with
    | .error fault => .error (.frame fault)
    | .ok .done => .ok log
    | .ok .torn => .ok log
    | .ok (.frame f rest) =>
      match log.check f with
      | .error fault => .error fault
      | .ok changes => (log.extend f changes).replay rest := by
  rw [replay]
  split
  all_goals
    rename_i reading
    exact reading ▸ rfl

theorem replay_of_frame {s rest : List UInt8} {f : Frame}
    (reading : Frame.read s = .ok (.frame f rest)) (checked : log.check f = .ok c) :
    log.replay s = (log.extend f c).replay rest := by
  rw [replay_eq, reading]
  simp only [checked]

theorem replay_of_fault {s rest : List UInt8} {f : Frame} {fault : Fault}
    (reading : Frame.read s = .ok (.frame f rest)) (failed : log.check f = .error fault) :
    log.replay s = .error fault := by
  rw [replay_eq, reading]
  simp only [failed]

theorem replay_of_end {s : List UInt8}
    (reading : Frame.read s = .ok .done ∨ Frame.read s = .ok .torn) : log.replay s = .ok log := by
  rcases reading with reading | reading
  · rw [replay_eq, reading]
  · rw [replay_eq, reading]

/-- A frame of the log itself is refused only for its payload. -/
theorem check_frame (log : ChangeLog) (c : ChangeSet) : log.check (log.frame c) =
    match (Json.ofBytes? c.toJson.bytes).bind ChangeSet.ofJson? with
    | none => .error .badPayload
    | some changes => .ok changes := by
  have sequence : (log.frame c).sequence = log.sequence := rfl
  have hash : Digest.chain log.head (log.frame c).sequence (log.frame c).payload =
      (log.frame c).hash := rfl
  rw [check, if_neg (fun other => other sequence), hash, if_neg (fun other => other rfl)]
  rfl

theorem replay_record (framed : c.Framed) (counted : log.sequence < 2 ^ 64) (rest : List UInt8) :
    log.replay ((log.frame c).bytes ++ rest) = (log.record c).replay rest := by
  refine replay_of_frame (Frame.read_bytes (Frame.fits_next _ counted framed.small) rest) ?_
  rw [check_frame, framed.reads]

/-- Of frames that are cut off somewhere, the whole ones are read. -/
theorem replay_take (log : ChangeLog) (cs : List ChangeSet) (framed : ∀ c ∈ cs, c.Framed)
    (counted : log.sequence + cs.length ≤ 2 ^ 64) (n : Nat) :
    ∃ j ≤ cs.length,
      (∀ i ≤ cs.length, i ≤ j ↔ ((log.frames (cs.take i)).flatMap Frame.bytes).length ≤ n) ∧
      log.replay (((log.frames cs).flatMap Frame.bytes).take n) =
        .ok (log.recordAll (cs.take j)) := by
  induction cs generalizing log n with
  | nil =>
    refine ⟨0, Nat.le_refl _, fun i bound => ?_, ?_⟩
    · rw [Nat.le_zero.1 bound]
      simp [frames]
    · rw [frames, List.flatMap_nil, List.take_nil]
      exact replay_of_end (.inl rfl)
  | cons c cs ih =>
    rw [List.length_cons] at counted
    have first := framed c List.mem_cons_self
    have room : log.sequence < 2 ^ 64 := by omega
    by_cases whole : (log.frame c).bytes.length ≤ n
    · obtain ⟨j, bound, within, read⟩ := ih (log.record c)
        (fun c mem => framed c (List.mem_cons_of_mem _ mem))
        (by rw [show (log.record c).sequence = log.sequence + 1 from rfl]; omega)
        (n - (log.frame c).bytes.length)
      refine ⟨j + 1, Nat.succ_le_succ bound, fun i short => ?_, ?_⟩
      · cases i with
        | zero => simp [frames]
        | succ i =>
          rw [List.length_cons] at short
          have within := within i (by omega)
          rw [List.take_succ_cons, frames, List.flatMap_cons, List.length_append]
          omega
      · rw [frames, List.flatMap_cons, List.take_append, List.take_of_length_le whole,
          replay_record first room, read, List.take_succ_cons]
        rfl
    · refine ⟨0, Nat.zero_le _, fun i short => ?_, ?_⟩
      · cases i with
        | zero => simp [frames]
        | succ i =>
          rw [List.take_succ_cons, frames, List.flatMap_cons, List.length_append]
          omega
      · -- the cut falls into the first frame, and nothing after it is left
        have cut : n < (log.frame c).bytes.length := Nat.not_le.1 whole
        have short : ((log.frame c).bytes ++
            ((log.record c).frames cs).flatMap Frame.bytes).take n =
              (log.frame c).bytes.take n := by
          rw [List.take_append, Nat.sub_eq_zero_of_le (Nat.le_of_lt cut), List.take_zero,
            List.append_nil]
        rw [frames, List.flatMap_cons, short]
        exact replay_of_end
          (Frame.read_of_cut (Frame.cut_take (Frame.fits_next _ room first.small) cut))

/-- The frames of a log are replayed, unless one of them nests too deeply to be read. -/
theorem replay_frames (log : ChangeLog) (cs : List ChangeSet)
    (written : ∀ c ∈ cs, c.Stored ∧ c.toJson.bytes.length ≤ Frame.payloadLimit)
    (counted : log.sequence + cs.length ≤ 2 ^ 64) :
    log.replay ((log.frames cs).flatMap Frame.bytes) =
      if ∀ c ∈ cs, c.toJson.depth ≤ Json.depthLimit then .ok (log.recordAll cs)
      else .error .badPayload := by
  induction cs generalizing log with
  | nil =>
    rw [if_pos (by simp)]
    exact replay_of_end (.inl rfl)
  | cons c cs ih =>
    rw [List.length_cons] at counted
    obtain ⟨stored, small⟩ := written c List.mem_cons_self
    have fits : (log.frame c).Fits := Frame.fits_next _ (by omega) small
    have reading := Frame.read_bytes fits (((log.record c).frames cs).flatMap Frame.bytes)
    have checked := log.check_frame c
    rw [ChangeSet.ofBytes?_toJson stored] at checked
    rw [frames, List.flatMap_cons]
    by_cases shallow : c.toJson.depth ≤ Json.depthLimit
    · have rest := ih (log.record c) (fun c mem => written c (List.mem_cons_of_mem _ mem))
        (by rw [show (log.record c).sequence = log.sequence + 1 from rfl]; omega)
      rw [if_pos shallow] at checked
      rw [replay_of_frame reading checked]
      refine rest.trans ?_
      simp only [List.forall_mem_cons, shallow, true_and]
      rfl
    · rw [if_neg shallow] at checked
      rw [replay_of_fault reading checked, if_neg fun all => shallow (all c List.mem_cons_self)]

theorem openFile_recordAll (cs : List ChangeSet)
    (written : ∀ c ∈ cs, c.Stored ∧ c.toJson.bytes.length ≤ Frame.payloadLimit)
    (counted : cs.length ≤ 2 ^ 64) : openFile (empty.recordAll cs).file =
      if ∀ c ∈ cs, c.toJson.depth ≤ Json.depthLimit then .ok (empty.recordAll cs)
      else .error .badPayload := by
  have file : (empty.recordAll cs).file = (empty.frames cs).flatMap Frame.bytes :=
    file_recordAll empty cs
  rw [file, openFile]
  exact replay_frames empty cs written (by rw [show empty.sequence = 0 from rfl]; omega)

/-! ## Histories of a log -/

/-- A log after commits and reopenings, with the change-sets of its frames. A crash may
have cut the file before it was opened again. A file has at most as many bytes as a
number of sixty-four bits counts. -/
inductive Journal : List ChangeSet → ChangeLog → Prop
  | created {log : ChangeLog} (opened : openFile [] = .ok log) : Journal [] log
  | skipped {cs : List ChangeSet} {log next : ChangeLog} {c : ChangeSet} (past : Journal cs log)
      (empty : c.isEmpty = true) (committed : log.commit c = .ok next) : Journal cs next
  | committed {cs : List ChangeSet} {log next : ChangeLog} {c : ChangeSet} (past : Journal cs log)
      (filled : c.isEmpty = false) (reads : c.ReadsBack) (committed : log.commit c = .ok next)
      (sized : next.file.length < 2 ^ 64) : Journal (cs ++ [c]) next
  | reopened {cs : List ChangeSet} {log next : ChangeLog} (past : Journal cs log) (n : Nat)
      (opened : openFile (log.file.take n) = .ok next) : Journal (cs.take next.sequence) next

theorem Journal.record {cs : List ChangeSet} (past : Journal cs log) (framed : c.Framed)
    (sized : (log.record c).file.length < 2 ^ 64) : Journal (cs ++ [c]) (log.record c) :=
  .committed past framed.filled framed.reads
    (commit_eq_ok.2 (.inr ⟨framed.filled, framed.small, rfl⟩)) sized

theorem open_recorded (cs : List ChangeSet) (framed : ∀ c ∈ cs, c.Framed)
    (counted : cs.length ≤ 2 ^ 64) (n : Nat) :
    ∃ j ≤ cs.length,
      (∀ i ≤ cs.length, i ≤ j ↔ ((empty.frames (cs.take i)).flatMap Frame.bytes).length ≤ n) ∧
      openFile ((empty.recordAll cs).file.take n) = .ok (empty.recordAll (cs.take j)) := by
  have file : (empty.recordAll cs).file = (empty.frames cs).flatMap Frame.bytes :=
    file_recordAll empty cs
  rw [file, openFile]
  exact replay_take empty cs framed (by rw [show empty.sequence = 0 from rfl]; omega) n

/-- A log is the one that recorded the change-sets of its frames. -/
theorem Journal.recorded {cs : List ChangeSet} (journal : Journal cs log) :
    log = empty.recordAll cs ∧ (∀ c ∈ cs, c.Framed) ∧ cs.length ≤ 2 ^ 64 := by
  induction journal with
  | created opened =>
    refine ⟨?_, by simp, by simp⟩
    rw [openFile, replay_of_end (.inl rfl)] at opened
    exact (Except.ok.inj opened).symm
  | skipped _ none committed ih =>
    rcases commit_eq_ok.1 committed with ⟨-, rfl⟩ | ⟨filled, -⟩
    · exact ih
    · rw [none] at filled
      cases filled
  | @committed cs log next c _ filled reads committed sized ih =>
    obtain ⟨rfl, framed, -⟩ := ih
    rcases commit_eq_ok.1 committed with ⟨none, -⟩ | ⟨-, small, rfl⟩
    · rw [none] at filled
      cases filled
    have recorded : (empty.recordAll cs).record c = empty.recordAll (cs ++ [c]) := by
      rw [recordAll_append]
      rfl
    refine ⟨recorded, fun d mem => ?_, ?_⟩
    · rcases List.mem_append.1 mem with mem | mem
      · exact framed d mem
      · rw [List.mem_singleton.1 mem]
        exact ⟨filled, small, reads⟩
    · have bound := length_le_file empty (cs ++ [c])
      rw [recorded] at sized
      omega
  | @reopened cs log next _ n opened ih =>
    obtain ⟨rfl, framed, counted⟩ := ih
    obtain ⟨j, bound, -, read⟩ := open_recorded cs framed counted n
    cases read.symm.trans opened
    have sequence : (empty.recordAll (cs.take j)).sequence = j := by
      rw [sequence_recordAll, List.length_take, show empty.sequence = 0 from rfl]
      omega
    rw [sequence]
    refine ⟨rfl, fun c mem => framed c (List.mem_of_mem_take mem), ?_⟩
    rw [List.length_take]
    omega

end ChangeLog

/-- A store in memory takes all change-sets. -/
theorem Store.memory_commitAll (space : KeySpace) (cs : List ChangeSet) :
    cs.foldlM commit (memory space) =
      .ok (memory (cs.foldl (fun space c => c.applyTo space) space)) := by
  induction cs generalizing space with
  | nil => rfl
  | cons c cs ih => exact ih (c.applyTo space)

namespace ChangeLog

/-- Wherever the file of a log is cut, the log can be opened again. It has the frames that
lie wholly inside the cut file, its file ends with the last of them, and it shows what
a store in memory shows that was given their change-sets. -/
theorem Journal.survives_cut {cs : List ChangeSet} {log : ChangeLog} (journal : Journal cs log)
    (n : Nat) : ∃ (next : ChangeLog) (memory : Store) (j : Nat),
      log.file = (empty.frames cs).flatMap Frame.bytes ∧ j ≤ cs.length ∧
      (∀ i ≤ cs.length, i ≤ j ↔ ((empty.frames (cs.take i)).flatMap Frame.bytes).length ≤ n) ∧
      openFile (log.file.take n) = .ok next ∧ next.sequence = j ∧
      next.file = (empty.frames (cs.take j)).flatMap Frame.bytes ∧
      (cs.take j).foldlM Store.commit .empty = .ok memory ∧
      ∀ key, next.get? key = memory.get? key := by
  obtain ⟨rfl, framed, counted⟩ := journal.recorded
  obtain ⟨j, bound, within, read⟩ := open_recorded cs framed counted n
  refine ⟨empty.recordAll (cs.take j), _, j, file_recordAll empty cs, bound, within, read, ?_,
    file_recordAll empty _, Store.memory_commitAll ∅ _, ?_⟩
  · rw [sequence_recordAll, List.length_take, show empty.sequence = 0 from rfl]
    omega
  · intro key
    show (empty.recordAll (cs.take j)).space.get? key = _
    rw [space_recordAll]
    rfl

/-! ## A log that is cut within its second frame -/

/-- Two counters, one after the other. -/
def counters : List ChangeSet :=
  [.put .empty "a" (.long 1), .put .empty "b" (.long 2)]

theorem framed_counters : ∀ c ∈ counters, c.Framed := by
  have small : counters.all (fun c => !c.isEmpty &&
      decide (c.toJson.bytes.length ≤ Frame.payloadLimit) &&
      decide (c.toJson.depth ≤ Json.depthLimit)) = true := by decide +kernel
  have stored : ∀ c ∈ counters, c.Stored := by
    intro c mem w written
    rcases List.mem_cons.1 mem with rfl | mem
    · rw [List.mem_singleton.1 written]
      exact show 1 < Text.word64 by decide
    · rw [List.mem_singleton.1 mem] at written
      rw [List.mem_singleton.1 written]
      exact show 2 < Text.word64 by decide
  intro c mem
  have each := List.all_eq_true.1 small c mem
  simp only [Bool.and_eq_true, Bool.not_eq_true', decide_eq_true_eq] at each
  exact ⟨each.1.1, each.1.2, (ChangeSet.readsBack_iff (stored c mem)).2 each.2⟩

/-- Both frames have a hundred and seven bytes. -/
theorem length_counters (i : Nat) : ((empty.frames (counters.take i)).flatMap Frame.bytes).length =
    ((counters.take i).map fun _ => 107).sum := by
  have sizes : counters.map (fun c => Frame.overhead + c.toJson.bytes.length) =
      counters.map fun _ => 107 := by decide +kernel
  rw [length_flatMap_frames empty _
    (fun c mem => framed_counters c (List.mem_of_mem_take mem)) ?_, List.map_take, List.map_take,
    sizes]
  have bound : (counters.take i).length ≤ 2 := List.length_take_le' ..
  rw [show empty.sequence = 0 from rfl]
  omega

theorem journal_counters : Journal counters (empty.recordAll counters) := by
  have sized : ∀ i, (empty.recordAll (counters.take i)).file.length < 2 ^ 64 := by
    intro i
    have bound : (counters.take i).length ≤ 2 := List.length_take_le' ..
    rw [file_recordAll, List.length_append, length_counters, List.map_const',
      List.sum_replicate_nat, show empty.file.length = 0 from rfl]
    omega
  have first := (Journal.created (replay_of_end (.inl rfl))).record
    (framed_counters _ List.mem_cons_self) (sized 1)
  exact first.record (framed_counters _ (List.mem_cons_of_mem _ List.mem_cons_self)) (sized 2)

/-- The cut falls into the payload of the second frame, so the first counter is all that
is left. -/
theorem counters_survive_cut : ∃ next,
    openFile ((empty.recordAll counters).file.take 130) = .ok next ∧ next.sequence = 1 ∧
      next.file.length = 107 ∧ (next.get? "a").bind (·.long?) = some 1 ∧
      (next.get? "b").isNone = true := by
  obtain ⟨next, memory, j, -, bound, within, opened, sequence, file, given, shown⟩ :=
    journal_counters.survives_cut 130
  have one := within 1 (by decide)
  have two := within 2 (by decide)
  rw [length_counters] at one two
  have j_eq : j = 1 := by
    have : ((counters.take 1).map fun _ => 107).sum = 107 := rfl
    have : ((counters.take 2).map fun _ => 107).sum = 214 := rfl
    omega
  subst j_eq
  cases given
  refine ⟨next, opened, sequence, ?_, ?_, ?_⟩
  · rw [file, length_counters]
    rfl
  · rw [shown]
    rfl
  · rw [shown]
    rfl

end ChangeLog
end Reconfig
