/-
The files that can be opened.

Whoever wrote the file: if it opens, then its bytes are those that the log itself would
write for some payloads, one frame after the other, and behind them at most the beginning
of a frame. So nothing in the file is passed over, and what was cut off leaves a file that
opens again as it is.
-/
import Reconfig.Proofs.Store.Layout
import Reconfig.Proofs.Store.Recovery
import Reconfig.Store.Handle

namespace Reconfig

/-- The change-set that is written in a payload. -/
def ChangeSet.ofBytes? (payload : List UInt8) : Option ChangeSet :=
  (Json.ofBytes? payload).bind ofJson?

/-- Frames for the payloads, each of which follows the one before it. -/
def Frame.series (head : List UInt8) (sequence : Nat) : List (List UInt8) → List Frame
  | [] => []
  | p :: payloads =>
    next head sequence p :: series (next head sequence p).hash (sequence + 1) payloads

namespace ChangeLog

variable {log next : ChangeLog} {s : List UInt8}

theorem check_eq_ok_iff {f : Frame} {c : ChangeSet} : log.check f = .ok c ↔
    f = Frame.next log.head log.sequence f.payload ∧ ChangeSet.ofBytes? f.payload = some c := by
  obtain ⟨sequence, payload, hash⟩ := f
  simp only [check, Frame.next, Frame.mk.injEq, true_and]
  by_cases other : sequence = log.sequence
  · subst other
    by_cases chained : Digest.chain log.head log.sequence payload = hash
    · subst chained
      rw [if_neg (fun no => no rfl), if_neg (fun no => no rfl)]
      rw [show (Json.ofBytes? payload).bind ChangeSet.ofJson? = ChangeSet.ofBytes? payload from rfl]
      simp only [true_and]
      cases ChangeSet.ofBytes? payload with
      | none => simp
      | some changes => simp
    · rw [if_neg (fun no => no rfl), if_pos chained]
      have unchained : ¬ hash = Digest.chain log.head log.sequence payload := Ne.symm chained
      simp [unchained]
  · rw [if_pos other]
    simp [other]

/-- The second log is what the first one becomes through frames with these payloads, in
which these change-sets are written. -/
structure Grows (log : ChangeLog) (payloads : List (List UInt8)) (changes : List ChangeSet)
    (next : ChangeLog) : Prop where
  fits : ∀ f ∈ Frame.series log.head log.sequence payloads, f.Fits
  decoded : payloads.map ChangeSet.ofBytes? = changes.map some
  file : next.file = log.file ++ (Frame.series log.head log.sequence payloads).flatMap Frame.bytes
  space : next.space = changes.foldl (fun space c => c.applyTo space) log.space
  sequence : next.sequence = log.sequence + payloads.length
  head : next.head =
    (Frame.series log.head log.sequence payloads).foldl (fun _ f => f.hash) log.head

theorem grows_nil : log.Grows [] [] log :=
  ⟨by simp [Frame.series], rfl, by simp [Frame.series], rfl, rfl, rfl⟩

theorem Grows.eq_self (grows : log.Grows [] [] next) : next = log := by
  obtain ⟨-, -, file, space, sequence, head⟩ := grows
  cases next
  simp only [Frame.series, List.flatMap_nil, List.append_nil, List.foldl_nil, List.length_nil,
    Nat.add_zero] at file space sequence head
  subst file space sequence head
  rfl

theorem grows_cons_iff {payload : List UInt8} {c : ChangeSet} {payloads : List (List UInt8)}
    {changes : List ChangeSet} : log.Grows (payload :: payloads) (c :: changes) next ↔
      (Frame.next log.head log.sequence payload).Fits ∧ ChangeSet.ofBytes? payload = some c ∧
        (log.extend (Frame.next log.head log.sequence payload) c).Grows payloads changes next := by
  constructor
  · rintro ⟨fits, decoded, file, space, sequence, head⟩
    simp only [Frame.series, List.forall_mem_cons, List.map_cons, List.cons.injEq,
      List.flatMap_cons, List.foldl_cons, List.length_cons] at fits decoded file space sequence head
    refine ⟨fits.1, decoded.1, fits.2, decoded.2, ?_, space, ?_, head⟩
    · rw [file, ← List.append_assoc]
      rfl
    · rw [sequence, Nat.add_comm payloads.length, ← Nat.add_assoc]
      rfl
  · rintro ⟨fit, first, fits, decoded, file, space, sequence, head⟩
    refine ⟨?_, ?_, ?_, space, ?_, head⟩
    · simp only [Frame.series, List.forall_mem_cons]
      exact ⟨fit, fits⟩
    · rw [List.map_cons, List.map_cons, first, decoded]
    · rw [file, Frame.series, List.flatMap_cons, ← List.append_assoc]
      rfl
    · rw [sequence, List.length_cons, Nat.add_comm payloads.length, ← Nat.add_assoc]
      rfl

/-- What is replayed are frames as the log writes them, and then a cut. -/
theorem replay_eq_ok_iff : log.replay s = .ok next ↔
    ∃ payloads changes tail, log.Grows payloads changes next ∧
      s = (Frame.series log.head log.sequence payloads).flatMap Frame.bytes ++ tail ∧
      Frame.Cut tail := by
  constructor
  · intro replayed
    induction log, s using replay.induct with
    | case1 log s fault reading =>
      rw [replay_eq, reading] at replayed
      cases replayed
    | case2 log s reading =>
      rw [replay_of_end (.inl reading)] at replayed
      cases replayed
      exact ⟨[], [], s, grows_nil, rfl, Frame.read_eq_end_iff.1 (.inl reading)⟩
    | case3 log s reading =>
      rw [replay_of_end (.inr reading)] at replayed
      cases replayed
      exact ⟨[], [], s, grows_nil, rfl, Frame.read_eq_end_iff.1 (.inr reading)⟩
    | case4 log s f rest reading fault failed =>
      rw [replay_of_fault reading failed] at replayed
      cases replayed
    | case5 log s f rest reading c checked ih =>
      rw [replay_of_frame reading checked] at replayed
      -- a frame that passes is the one that the log itself would write next
      obtain ⟨payloads, changes, tail, grows, split, cut⟩ := ih replayed
      obtain ⟨fits, rfl⟩ := Frame.read_eq_frame_iff.1 reading
      obtain ⟨own, decoded⟩ := check_eq_ok_iff.1 checked
      rw [own] at fits grows
      refine ⟨f.payload :: payloads, c :: changes, tail,
        grows_cons_iff.2 ⟨fits, decoded, grows⟩, ?_, cut⟩
      rw [Frame.series, List.flatMap_cons, ← own, List.append_assoc, split]
      rfl
  · rintro ⟨payloads, changes, tail, grows, rfl, cut⟩
    induction payloads generalizing log changes with
    | nil =>
      have none : changes = [] := by simpa using grows.decoded.symm
      rw [none] at grows
      rw [grows.eq_self, Frame.series]
      exact replay_of_end (Frame.read_of_cut cut)
    | cons payload payloads ih =>
      cases changes with
      | nil =>
        have := grows.decoded
        simp at this
      | cons c changes =>
        obtain ⟨fits, decoded, grows⟩ := grows_cons_iff.1 grows
        rw [Frame.series, List.flatMap_cons, List.append_assoc,
          replay_of_frame (Frame.read_bytes fits _) (check_eq_ok_iff.2 ⟨rfl, decoded⟩)]
        exact ih _ grows

/-! ## Whole files -/

/-- The log holds these payloads, and nothing besides. -/
structure Holds (log : ChangeLog) (payloads : List (List UInt8)) (changes : List ChangeSet) :
    Prop where
  small : ∀ p ∈ payloads, p.length ≤ Frame.payloadLimit
  counted : payloads.length ≤ 2 ^ 64
  decoded : payloads.map ChangeSet.ofBytes? = changes.map some
  file : log.file = (Frame.series Digest.zero 0 payloads).flatMap Frame.bytes
  space : log.space = changes.foldl (fun space c => c.applyTo space) ∅
  sequence : log.sequence = payloads.length
  head : log.head = (Frame.series Digest.zero 0 payloads).foldl (fun _ f => f.hash) Digest.zero

theorem fits_series_iff {head : List UInt8} {sequence : Nat} {payloads : List (List UInt8)} :
    (∀ f ∈ Frame.series head sequence payloads, f.Fits) ↔
      (∀ p ∈ payloads, p.length ≤ Frame.payloadLimit) ∧
        ∀ i < payloads.length, sequence + i < 2 ^ 64 := by
  induction payloads generalizing head sequence with
  | nil => simp [Frame.series]
  | cons p payloads ih =>
    have first : (Frame.next head sequence p).Fits ↔
        sequence < 2 ^ 64 ∧ p.length ≤ Frame.payloadLimit :=
      ⟨fun fits => ⟨fits.sequence, fits.payload⟩, fun ⟨counted, small⟩ =>
        Frame.fits_next head counted small⟩
    rw [Frame.series, List.forall_mem_cons, List.forall_mem_cons, ih, first, List.length_cons]
    constructor
    · rintro ⟨⟨counted, small⟩, rest, later⟩
      refine ⟨⟨small, rest⟩, fun i within => ?_⟩
      cases i with
      | zero => exact counted
      | succ i =>
        have := later i (by omega)
        omega
    · rintro ⟨⟨small, rest⟩, counted⟩
      refine ⟨⟨counted 0 (Nat.succ_pos _), small⟩, rest, fun i within => ?_⟩
      have := counted (i + 1) (by omega)
      omega

theorem grows_empty_iff {payloads : List (List UInt8)} {changes : List ChangeSet} :
    empty.Grows payloads changes log ↔ log.Holds payloads changes := by
  have start : empty.sequence = 0 := rfl
  constructor
  · rintro ⟨fits, decoded, file, space, sequence, head⟩
    obtain ⟨small, counted⟩ := fits_series_iff.1 fits
    refine ⟨small, ?_, decoded, file, space, ?_, head⟩
    · refine Nat.not_lt.1 fun many => ?_
      have := counted (2 ^ 64) many
      omega
    · rw [sequence, start, Nat.zero_add]
  · rintro ⟨small, counted, decoded, file, space, sequence, head⟩
    refine ⟨fits_series_iff.2 ⟨small, fun i within => ?_⟩, decoded, file, space, ?_, head⟩
    · rw [start]
      omega
    · rw [sequence, start, Nat.zero_add]

theorem openFile_eq_ok_iff {file : List UInt8} : openFile file = .ok log ↔
    ∃ payloads changes tail, log.Holds payloads changes ∧ file = log.file ++ tail ∧
      Frame.Cut tail := by
  rw [openFile, replay_eq_ok_iff]
  simp only [grows_empty_iff]
  constructor
  · rintro ⟨payloads, changes, tail, holds, split, cut⟩
    exact ⟨payloads, changes, tail, holds, holds.file ▸ split, cut⟩
  · rintro ⟨payloads, changes, tail, holds, split, cut⟩
    exact ⟨payloads, changes, tail, holds, holds.file ▸ split, cut⟩

theorem openFile_opened {file : List UInt8} (opened : openFile file = .ok log) :
    openFile log.file = .ok log := by
  obtain ⟨payloads, changes, tail, holds, -, -⟩ := openFile_eq_ok_iff.1 opened
  exact openFile_eq_ok_iff.2
    ⟨payloads, changes, [], holds, (List.append_nil _).symm, Frame.cut_nil⟩

end ChangeLog

namespace Handle

/-- A log that is there but not open. -/
def closed (file : List UInt8) : Handle := ⟨some file, none⟩

theorem openLog_closed (file : List UInt8) : (closed file).openLog =
    match ChangeLog.openFile file with
    | .error fault => (closed file, .error fault.toError)
    | .ok log => (⟨some log.file, some (.log log)⟩, .ok log) := rfl

/-- A file opens exactly if it is one that a log would have, up to the beginning of one more
frame, which is dropped. It is left alone otherwise, and it opens again to the same. -/
theorem openLog_image (file : List UInt8) :
    (∀ error, (closed file).openLog.2 = .error error → (closed file).openLog.1 = closed file) ∧
    (∀ log, (closed file).openLog.2 = .ok log ↔
      ∃ payloads changes tail, log.Holds payloads changes ∧ file = log.file ++ tail ∧
        Frame.Cut tail) ∧
    ∀ log, (closed file).openLog.2 = .ok log →
      (closed file).openLog.1 = ⟨some log.file, some (.log log)⟩ ∧
      (closed file).openLog.1.close.openLog = (closed file).openLog := by
  rw [openLog_closed]
  simp only [← ChangeLog.openFile_eq_ok_iff]
  cases opened : ChangeLog.openFile file with
  | error fault => simp
  | ok log =>
    refine ⟨fun error failed => (nomatch failed), fun other => ?_, fun other same => ?_⟩
    · simp only [Except.ok.injEq]
    cases same
    refine ⟨rfl, ?_⟩
    show (closed log.file).openLog = _
    rw [openLog_closed, ChangeLog.openFile_opened opened]

end Handle
end Reconfig
