/-
Files in which one byte was changed.

Every field of a frame is covered, but the length stands before all checks: it says how
many bytes they take in. A length that is changed to reach beyond the end of the file makes
its frame look like one that was cut off while it was written, and all that stands behind
its front is dropped. Any other change is noticed, also one that moves the end of the
payload: the payload is an object, and neither a part of one is an object nor an object
with the bytes of a hash behind it, unless these are blanks, and then what follows does not
look like a frame.
-/
import Reconfig.Proofs.Digest.Crc32
import Reconfig.Proofs.Json.Extent
import Reconfig.Proofs.Outcome
import Reconfig.Proofs.Store.Image
import Reconfig.Store.Damage

namespace Reconfig

/-! ## The text of a change-set -/

theorem ChangeSet.le_length_toJson {c : ChangeSet} (filled : c.isEmpty = false) :
    36 ≤ c.toJson.bytes.length := by
  refine Nat.le_trans ?_ c.toJson.length_chars_le
  have quoted (s : String) : 2 ≤ (Json.quote s).length := by simp [Json.quote]
  have kind : (Json.quote "kind").length = 6 := by decide
  have ops : (Json.quote "ops").length = 5 := by decide
  have key : (Json.quote "key").length = 5 := by decide
  have value : (Json.quote "value").length = 7 := by decide
  obtain ⟨writes⟩ := c
  cases writes with
  | nil => cases filled
  | cons w rest =>
    have nonempty := quoted w.key
    have content : 8 ≤ w.value.toJson.chars.length := by
      cases w.value <;>
      · simp only [Value.toJson, Json.chars, List.length_append, List.length_cons, kind]
        omega
    simp only [toJson, writeJson, List.map_cons, Json.chars, Json.membersTail, List.length_append,
      List.length_cons, ops, key, value, List.length_nil]
    omega

/-- Each digit counts. -/
theorem Digest.le_ofLittleEndian (bytes : List UInt8) (i : Nat) (inside : i < bytes.length) :
    bytes[i].toNat * 256 ^ i ≤ ofLittleEndian bytes := by
  induction bytes generalizing i with
  | nil => cases inside
  | cons b rest ih =>
    have step : ofLittleEndian (b :: rest) = b.toNat + 256 * ofLittleEndian rest := rfl
    rw [step]
    cases i with
    | zero =>
      rw [List.getElem_cons_zero]
      omega
    | succ i =>
      rw [List.length_cons] at inside
      have := ih i (by omega)
      rw [List.getElem_cons_succ, Nat.pow_succ, ← Nat.mul_assoc]
      omega

namespace Frame

variable {f g : Frame} {s rest : List UInt8} {i k : Nat} {b : UInt8}

/-! ## A byte behind the mark -/

theorem checksum_set_ne {body : List UInt8} (inside : i < body.length) (other : b ≠ body[i]) :
    checksum (body.set i b) ≠ checksum body := by
  intro same
  have back : ∀ bytes, Digest.ofLittleEndian (checksum bytes) = (Digest.crc32 bytes).toNat :=
    fun bytes => Digest.ofLittleEndian_littleEndian _ _ (Digest.crc32 bytes).toNat_lt
  have equal : Digest.crc32 (body.set i b) = Digest.crc32 body := by
    rw [← UInt32.toNat_inj, ← back, ← back, same]
  have split : body = body.take i ++ body[i] :: body.drop (i + 1) := by simp
  refine Digest.crc32_ne_of_ne other (body.take i) (body.drop (i + 1)) ?_
  rw [← split, ← equal, List.set_eq_take_append_cons_drop, if_pos inside]

/-- No change of one byte leads from a text with its checksum to another one with its own. -/
theorem eq_of_set_sealed {body body' : List UInt8} (width : body'.length = body.length)
    (inside : i < (body ++ checksum body).length)
    (same : (body ++ checksum body).set i b = body' ++ checksum body') :
    b = (body ++ checksum body)[i] := by
  by_cases covered : i < body.length
  · rw [List.set_append_left _ _ covered] at same
    obtain ⟨rfl, stamp⟩ := List.append_inj same (by rw [List.length_set, width])
    rw [List.getElem_append_left covered]
    by_contra other
    exact checksum_set_ne covered other stamp.symm
  · rw [List.set_append_right _ _ (Nat.not_lt.1 covered)] at same
    obtain ⟨rfl, stamp⟩ := List.append_inj same width.symm
    rw [List.getElem_append_right (Nat.not_lt.1 covered)]
    have back := congrArg (·[i - body.length]?) stamp
    rw [List.length_append] at inside
    simpa [List.getElem?_set, show i - body.length < (checksum body).length by omega] using back

/-- The front of a frame that says the right length is enough to compare the rest with it. -/
theorem read_of_altered (fits : f.Fits) (inside : i < (f.body ++ checksum f.body).length)
    (other : b ≠ (f.body ++ checksum f.body)[i])
    (length : announced (magic ++ ((f.body ++ checksum f.body).set i b ++ rest)) =
      f.payload.length) :
    ∃ fault, read (magic ++ ((f.body ++ checksum f.body).set i b ++ rest)) = .error fault := by
  have size := length_bytes fits
  have marked : (magic ++ ((f.body ++ checksum f.body).set i b ++ rest)).take magic.length =
      magic := List.take_left' rfl
  have room : overhead + announced (magic ++ ((f.body ++ checksum f.body).set i b ++ rest)) ≤
      (magic ++ ((f.body ++ checksum f.body).set i b ++ rest)).length := by
    rw [length, ← size]
    simp only [bytes, List.length_append, List.length_set]
    omega
  obtain ⟨g, stamp, after, fits', width, same, shape⟩ :=
    exists_sealed marked (length ▸ fits.payload) room
  have bodies : g.body.length = f.body.length := by
    rw [body_eq, body_eq]
    simp only [List.length_append, length_header, same, length, fits'.hash, fits.hash]
  have altered := List.append_cancel_left shape
  rw [← List.append_assoc g.body] at altered
  have equal := (List.append_inj altered (by
    simp only [List.length_set, List.length_append, bodies, width, length_checksum])).1
  refine ⟨.badChecksum g.sequence, ?_⟩
  rw [shape, read_of_sealed fits' width, if_neg]
  rintro rfl
  exact other (eq_of_set_sealed bodies inside equal)

/-! ## The length -/

/-- The place of a byte of the length. -/
def InLength (k : Nat) : Prop := magic.length + 8 ≤ k ∧ k < magic.length + headerSize

instance : DecidablePred InLength := fun _ => inferInstanceAs (Decidable (_ ∧ _))

theorem announced_set (outside : ¬ InLength k) (s : List UInt8) :
    announced (s.set k b) = announced s := by
  have width : magic.length + headerSize = magic.length + 8 + 4 := rfl
  unfold InLength at outside
  rw [announced, announced]
  by_cases before : k < magic.length + 8
  · rw [List.drop_set_of_lt before]
  · rw [List.drop_set, if_neg before, List.take_set_of_le (by omega)]

theorem take_magic_set (behind : magic.length ≤ k) :
    ((f.bytes ++ rest).set k b).take magic.length = magic := by
  rw [List.take_set_of_le behind, bytes, List.append_assoc, List.append_assoc, List.take_left' rfl]

theorem take_magic_set_ne (inside : k < f.bytes.length) (other : b ≠ f.bytes[k])
    (mark : k < magic.length) : ((f.bytes ++ rest).set k b).take magic.length ≠ magic := by
  intro same
  have entry : (((f.bytes ++ rest).set k b).take magic.length)[k]? = some b := by
    rw [List.getElem?_take_of_lt mark, List.getElem?_set_self (by
      rw [List.length_append]
      omega)]
  have own : f.bytes[k]? = magic[k]? := by
    rw [bytes, List.append_assoc, List.getElem?_append_left mark]
  rw [same, ← own, List.getElem?_eq_getElem inside] at entry
  exact other (Option.some.inj entry).symm

/-- One other byte makes a frame look cut off only if it makes it longer than the file. -/
theorem cut_tampered_iff (fits : f.Fits) (k : Nat) (b : UInt8) (rest : List UInt8) :
    Cut ((f.bytes ++ rest).set k b) ↔
      InLength k ∧ announced ((f.bytes ++ rest).set k b) ≤ payloadLimit ∧
        ((f.bytes ++ rest).set k b).length <
          overhead + announced ((f.bytes ++ rest).set k b) := by
  have size := length_bytes fits
  have long : overhead + f.payload.length ≤ ((f.bytes ++ rest).set k b).length := by
    rw [List.length_set, List.length_append]
    omega
  have width : overhead = magic.length + headerSize + Digest.size + checksumSize := rfl
  constructor
  · intro cut
    cases cut with
    | mark short => omega
    | header _ short => omega
    | rest taken allowed short =>
      refine ⟨?_, allowed, short⟩
      by_contra outside
      rw [announced_set outside, announced_bytes fits] at short
      omega
  · rintro ⟨⟨behind, -⟩, allowed, short⟩
    exact .rest (take_magic_set (by omega)) allowed short

/-! ## A frame with another length -/

/-- The last byte of the length weighs most. -/
theorem le_announced (inside : 15 < s.length) : s[15].toNat * 256 ^ 3 ≤ announced s := by
  have large := Digest.le_ofLittleEndian ((s.drop (magic.length + 8)).take 4) 3 (by
    have mark : magic.length = 4 := rfl
    rw [List.length_take, List.length_drop]
    omega)
  rw [List.getElem_take, List.getElem_drop] at large
  exact large

/-- Nothing that begins in a frame and behind its mark looks like the front of a frame: where the
length is expected, there is text. -/
theorem read_of_misplaced {c : ChangeSet} (filled : c.isEmpty = false)
    (payload : f.payload = c.toJson.bytes) (positive : 0 < i) (few : i ≤ 36) :
    ∃ fault, read ((f.bytes ++ rest).drop i) = .error fault := by
  have mark : magic.length = 4 := rfl
  have header : headerSize = 12 := rfl
  have long := payload ▸ ChangeSet.le_length_toJson filled
  have front : (magic ++ f.header).length = 16 := by
    rw [List.length_append, length_header, mark, header]
  have room : magic.length + headerSize ≤ ((f.bytes ++ rest).drop i).length := by
    rw [List.length_drop, bytes_append]
    simp only [List.length_append, length_header]
    omega
  by_cases marked : ((f.bytes ++ rest).drop i).take magic.length = magic
  · have text : 32 ≤ f.payload[i - 1].toNat :=
      c.toJson.visible_bytes _ (payload ▸ List.getElem_mem _)
    have inside : 15 < ((f.bytes ++ rest).drop i).length := by omega
    have last : ((f.bytes ++ rest).drop i)[15] = f.payload[i - 1] := by
      refine Option.some.inj ?_
      rw [← List.getElem?_eq_getElem, ← List.getElem?_eq_getElem, List.getElem?_drop, bytes_append,
        List.getElem?_append_right (by omega), List.getElem?_append_left (by omega), front,
        show i + 15 - 16 = i - 1 by omega]
    have large := le_announced inside
    rw [last] at large
    obtain ⟨sequence, refused⟩ := read_of_tooLong marked room (show payloadLimit < _ by
      unfold payloadLimit
      omega)
    exact ⟨_, refused⟩
  · exact ⟨_, read_of_unmarked (Nat.le_trans (Nat.le_add_right _ _) room) marked⟩

/-- A payload that ends at another place is no document, or it leaves the reader within the next
frame. -/
theorem read_of_misread {c d : ChangeSet} {next : Frame} {tail tail' : List UInt8}
    {changes : ChangeSet} (filled : d.isEmpty = false) (payload : f.payload = c.toJson.bytes)
    (payload' : next.payload = d.toJson.bytes) (other : g.payload.length ≠ f.payload.length)
    (width : tail.length = 36) (width' : tail'.length = 36)
    (same : g.payload ++ (tail' ++ s) = f.payload ++ (tail ++ (next.bytes ++ rest)))
    (decoded : ChangeSet.ofBytes? g.payload = some changes) :
    ∃ fault, read s = .error fault := by
  obtain ⟨j, document, -⟩ := Option.bind_eq_some_iff.1 decoded
  rcases List.append_eq_append_iff.1 same with ⟨more, whole, -⟩ | ⟨extra, whole, after⟩
  · rw [payload] at whole
    have none : more = [] := Json.eq_nil_of_ofBytes?_part document whole.symm
    rw [none, List.append_nil] at whole
    exact absurd (by rw [payload, whole]) other
  · rw [whole, payload] at document
    obtain ⟨blanks, blank, shape⟩ := Json.isSpace_of_ofBytes?_append document
    have few : extra.length ≤ 36 := by
      by_contra many
      -- the mark of the next frame is no blank
      have marked : (tail ++ (next.bytes ++ rest))[36]? = some 0x44 := by
        rw [List.getElem?_append_right (Nat.le_of_eq width), width]
        rfl
      rw [after, List.getElem?_append_left (by omega), shape] at marked
      have small := Json.le_of_mem_blanks blank (List.mem_of_getElem? marked)
      exact absurd small (by decide)
    have positive : 0 < extra.length := by
      refine List.length_pos_iff.2 fun none => other ?_
      rw [whole, none, List.append_nil]
    have left : s = (next.bytes ++ rest).drop extra.length := calc
      s = ((extra ++ (tail' ++ s)).drop extra.length).drop 36 := by
        rw [List.drop_left' rfl, List.drop_left' width']
      _ = ((tail ++ (next.bytes ++ rest)).drop 36).drop extra.length := by
        rw [after, List.drop_drop, List.drop_drop, Nat.add_comm]
      _ = (next.bytes ++ rest).drop extra.length := by rw [List.drop_left' width]
    rw [left]
    exact read_of_misplaced filled payload' positive few

end Frame

namespace ChangeLog

variable {log : ChangeLog} {f : Frame} {c d : ChangeSet} {s rest : List UInt8} {k : Nat} {b : UInt8}

/-! ## A frame with one other byte -/

theorem replay_of_read_error (refused : ∃ fault, Frame.read s = .error fault) :
    ∃ fault, log.replay s = .error fault := by
  obtain ⟨fault, reading⟩ := refused
  exact ⟨.frame fault, by rw [replay_eq, reading]⟩

/-- Frames that are read one after the other are replayed first. -/
theorem replay_flatMap_append (log : ChangeLog) {frames : List Frame}
    (fits : ∀ f ∈ frames, f.Fits) (s : List UInt8) :
    log.replay (frames.flatMap Frame.bytes ++ s) =
      (log.replay (frames.flatMap Frame.bytes)).bind fun next => next.replay s := by
  induction frames generalizing log with
  | nil =>
    rw [List.flatMap_nil, List.nil_append, replay_of_end (s := []) (.inl rfl)]
    rfl
  | cons f frames ih =>
    obtain ⟨first, others⟩ := List.forall_mem_cons.1 fits
    rw [List.flatMap_cons, List.append_assoc]
    cases checked : log.check f with
    | error fault =>
      rw [replay_of_fault (Frame.read_bytes first _) checked,
        replay_of_fault (Frame.read_bytes first _) checked]
      rfl
    | ok changes =>
      rw [replay_of_frame (Frame.read_bytes first _) checked,
        replay_of_frame (Frame.read_bytes first _) checked]
      exact ih _ others

/-- A frame that has another length is read as one that holds no change-set, or what is left
behind it is no frame. -/
theorem replay_of_stretched {next : Frame} (fits : f.Fits) (payload : f.payload = c.toJson.bytes)
    (filled : d.isEmpty = false) (payload' : next.payload = d.toJson.bytes)
    (marked : s.take Frame.magic.length = Frame.magic)
    (same : s.drop (Frame.magic.length + Frame.headerSize) =
      f.payload ++ (f.hash ++ Frame.checksum f.body ++ (next.bytes ++ rest)))
    (other : Frame.announced s ≠ f.payload.length) (whole : ¬ Frame.Cut s) :
    ∃ fault, log.replay s = .error fault := by
  rcases Frame.layout s with cut | ⟨long, unmarked⟩ | ⟨-, room, large⟩ |
    ⟨g, stamp, after, fits', width, given, shape⟩
  · exact absurd cut whole
  · exact absurd marked unmarked
  · obtain ⟨sequence, refused⟩ := Frame.read_of_tooLong marked room large
    exact replay_of_read_error ⟨_, refused⟩
  · have reading := Frame.read_of_sealed fits' width after
    rw [← shape] at reading
    by_cases right : Frame.checksum g.body = stamp
    · rw [if_pos right] at reading
      cases checked : log.check g with
      | error fault => exact ⟨fault, replay_of_fault reading checked⟩
      | ok changes =>
        have front : (Frame.magic ++ g.header).length = Frame.magic.length + Frame.headerSize := by
          rw [List.length_append, Frame.length_header]
        have split : s =
            (Frame.magic ++ g.header) ++ (g.payload ++ (g.hash ++ stamp ++ after)) := by
          rw [shape, Frame.body_eq]
          simp only [List.append_assoc]
        rw [split, List.drop_left' front] at same
        rw [replay_of_frame reading checked]
        refine replay_of_read_error (Frame.read_of_misread filled payload payload' (given ▸ other)
          ?_ ?_ same (check_eq_ok_iff.1 checked).2)
        · rw [List.length_append, fits.hash, Frame.length_checksum]
          rfl
        · rw [List.length_append, fits'.hash, width]
          rfl
    · rw [if_neg right] at reading
      exact replay_of_read_error ⟨_, reading⟩

/-- One other byte in a frame that another one follows is noticed, unless the frame is then taken
for one that was cut off. -/
theorem replay_of_tampered {next : Frame} (fits : f.Fits) (payload : f.payload = c.toJson.bytes)
    (filled : d.isEmpty = false) (payload' : next.payload = d.toJson.bytes)
    (inside : k < f.bytes.length) (other : b ≠ f.bytes[k])
    (whole : ¬ Frame.Cut ((f.bytes ++ (next.bytes ++ rest)).set k b)) :
    ∃ fault, log.replay ((f.bytes ++ (next.bytes ++ rest)).set k b) = .error fault := by
  have size := Frame.length_bytes fits
  by_cases mark : k < Frame.magic.length
  · have unmarked : ((f.bytes ++ (next.bytes ++ rest)).set k b).take Frame.magic.length ≠
        Frame.magic := Frame.take_magic_set_ne inside other mark
    refine replay_of_read_error ⟨_, Frame.read_of_unmarked ?_ unmarked⟩
    have width : Frame.overhead =
      Frame.magic.length + Frame.headerSize + Digest.size + Frame.checksumSize := rfl
    rw [List.length_set, List.length_append]
    omega
  have behind := Nat.not_lt.1 mark
  by_cases length : Frame.announced ((f.bytes ++ (next.bytes ++ rest)).set k b) =
      f.payload.length
  · obtain ⟨i, rfl⟩ := Nat.exists_eq_add_of_le behind
    have sealed : f.bytes = Frame.magic ++ (f.body ++ Frame.checksum f.body) :=
      List.append_assoc ..
    have inside' : i < (f.body ++ Frame.checksum f.body).length := by
      rw [sealed, List.length_append] at inside
      omega
    have altered : (f.bytes ++ (next.bytes ++ rest)).set (Frame.magic.length + i) b =
        Frame.magic ++ ((f.body ++ Frame.checksum f.body).set i b ++ (next.bytes ++ rest)) := by
      rw [sealed, List.append_assoc, List.set_append_right _ _ behind, Nat.add_sub_cancel_left,
        List.set_append_left _ _ inside']
    have other' : b ≠ (f.body ++ Frame.checksum f.body)[i] := by
      simpa only [sealed, List.getElem_append_right behind, Nat.add_sub_cancel_left] using other
    rw [altered] at length ⊢
    exact replay_of_read_error (Frame.read_of_altered fits inside' other' length)
  · have inLength : Frame.InLength k := by
      by_contra outside
      exact length (by rw [Frame.announced_set outside, Frame.announced_bytes fits])
    have left : ((f.bytes ++ (next.bytes ++ rest)).set k b).drop
        (Frame.magic.length + Frame.headerSize) =
          f.payload ++ (f.hash ++ Frame.checksum f.body ++ (next.bytes ++ rest)) := by
      rw [List.drop_set_of_lt inLength.2, Frame.bytes_append, List.append_assoc f.hash,
        List.drop_left' (by rw [List.length_append, Frame.length_header])]
    exact replay_of_stretched fits payload filled payload' (Frame.take_magic_set behind) left
      length whole

/-! ## A log with one other byte -/

/-- A log that takes change-sets in is the one that recorded them, and none of them is too long. -/
theorem foldlM_commit_eq_ok {log next : ChangeLog} {cs : List ChangeSet}
    (filled : ∀ c ∈ cs, c.isEmpty = false) : cs.foldlM commit log = .ok next ↔
      (∀ c ∈ cs, c.toJson.bytes.length ≤ Frame.payloadLimit) ∧ next = log.recordAll cs := by
  induction cs generalizing log with
  | nil => simp [recordAll, Outcome.pure_eq_ok, eq_comm]
  | cons c cs ih =>
    obtain ⟨first, others⟩ := List.forall_mem_cons.1 filled
    simp only [List.foldlM_cons, Outcome.bind_eq_ok, commit_eq_ok, first, ih others,
      List.forall_mem_cons, recordAll, List.foldl_cons]
    constructor
    · rintro ⟨_, ⟨none, -⟩ | ⟨-, small, rfl⟩, rest, rfl⟩
      · cases none
      · exact ⟨⟨small, rest⟩, rfl⟩
    · rintro ⟨⟨small, rest⟩, rfl⟩
      exact ⟨_, .inr ⟨trivial, small, rfl⟩, rest, rfl⟩

theorem openFile_framed {cs : List ChangeSet} (framed : ∀ c ∈ cs, c.Framed)
    (counted : cs.length ≤ 2 ^ 64) :
    openFile (empty.recordAll cs).file = .ok (empty.recordAll cs) := by
  obtain ⟨j, few, whole, opened⟩ :=
    open_recorded cs framed counted (empty.recordAll cs).file.length
  have all := (whole cs.length (Nat.le_refl _)).2 (by
    rw [List.take_of_length_le (Nat.le_refl _), file_recordAll, List.length_append]
    omega)
  rw [List.take_of_length_le (Nat.le_refl _), List.take_of_length_le all] at opened
  exact opened

theorem fits_frames {log : ChangeLog} {cs : List ChangeSet}
    (small : ∀ c ∈ cs, c.toJson.bytes.length ≤ Frame.payloadLimit)
    (counted : log.sequence + cs.length ≤ 2 ^ 64) : ∀ f ∈ log.frames cs, f.Fits := by
  induction cs generalizing log with
  | nil => simp [frames]
  | cons c cs ih =>
    obtain ⟨first, others⟩ := List.forall_mem_cons.1 small
    rw [List.length_cons] at counted
    have next : (log.record c).sequence = log.sequence + 1 := rfl
    rw [frames, List.forall_mem_cons]
    exact ⟨Frame.fits_next _ (by omega) first, ih others (by omega)⟩

/-- What stands behind the frames of a log is replayed onto what they give. -/
theorem openFile_recordAll_append {cs : List ChangeSet}
    (small : ∀ c ∈ cs, c.toJson.bytes.length ≤ Frame.payloadLimit)
    (counted : cs.length ≤ 2 ^ 64) (tail : List UInt8) :
    openFile ((empty.recordAll cs).file ++ tail) =
      (openFile (empty.recordAll cs).file).bind fun next => next.replay tail := by
  have fits : ∀ f ∈ empty.frames cs, f.Fits := fits_frames small (by
    rwa [show empty.sequence = 0 from rfl, Nat.zero_add])
  rw [file_recordAll]
  exact replay_flatMap_append .empty fits tail

end ChangeLog

theorem Damage.applyTo?_flip {front body : List UInt8} {k : Nat} (inside : k < body.length)
    (mask : UInt8) (rest : List UInt8) :
    (Damage.flip (front.length + k) mask).applyTo? (front ++ (body ++ rest)) =
      some (front ++ (body ++ rest).set k (body[k] ^^^ mask)) := by
  rw [Damage.applyTo?, List.getElem?_append_right (Nat.le_add_right ..),
    Nat.add_sub_cancel_left, List.getElem?_append_left inside, List.getElem?_eq_getElem inside,
    Option.map_some, List.set_append_right _ _ (Nat.le_add_right ..), Nat.add_sub_cancel_left]

/-- One byte of a log is changed, in a frame that is not the last one. Unless the byte is one of the
length, the log does not open and its file stays as it is. A length that exceeds the file is taken
for a frame that was cut off: the log opens with the frames before it, and the others are gone. -/
theorem Handle.openLog_tampered {before after : List ChangeSet} {c : ChangeSet}
    {prior log : ChangeLog} {k : Nat} {mask : UInt8}
    (filled : ∀ x ∈ before ++ c :: after, x.isEmpty = false)
    (start : before.foldlM ChangeLog.commit .empty = .ok prior)
    (others : (c :: after).foldlM ChangeLog.commit prior = .ok log)
    (sized : log.file.length < 2 ^ 64) (followed : after ≠ [])
    (inside : k < (prior.frame c).bytes.length) (other : mask ≠ 0) :
    ∃ damaged, (Damage.flip (prior.file.length + k) mask).applyTo? log.file = some damaged ∧
      if Frame.InLength k ∧
          Frame.announced (damaged.drop prior.file.length) ≤ Frame.payloadLimit ∧
          damaged.length < prior.file.length +
            (Frame.overhead + Frame.announced (damaged.drop prior.file.length)) then
        prior.sequence < log.sequence ∧ ChangeLog.openFile damaged = ChangeLog.openFile prior.file ∧
          ((∀ b ∈ before, b.ReadsBack) →
            (closed damaged).openLog = (⟨some prior.file, some (.log prior)⟩, .ok prior))
      else ∃ error, (closed damaged).openLog = (closed damaged, .error error) := by
  obtain ⟨filled', filled⟩ := List.forall_mem_append.1 filled
  obtain ⟨small, recorded⟩ := (ChangeLog.foldlM_commit_eq_ok filled').1 start
  obtain ⟨small', rfl⟩ := (ChangeLog.foldlM_commit_eq_ok filled).1 others
  obtain ⟨d, more, rfl⟩ := List.exists_cons_of_ne_nil followed
  have number : prior.sequence = before.length := by
    rw [recorded, ChangeLog.sequence_recordAll]
    exact Nat.zero_add _
  have counted : before.length + (c :: d :: more).length ≤ 2 ^ 64 := by
    rw [recorded, ← ChangeLog.recordAll_append] at sized
    have many := ChangeLog.length_le_file .empty (before ++ c :: d :: more)
    rw [List.length_append] at many
    omega
  have fits : (prior.frame c).Fits :=
    ChangeLog.fits_frames small' (number ▸ counted) _ List.mem_cons_self
  obtain ⟨rest, written⟩ : ∃ rest, (prior.recordAll (c :: d :: more)).file =
      prior.file ++ ((prior.frame c).bytes ++ (((prior.record c).frame d).bytes ++ rest)) :=
    ⟨_, ChangeLog.file_recordAll prior (c :: d :: more)⟩
  have own : (prior.frame c).bytes[k] ^^^ mask ≠ (prior.frame c).bytes[k] := fun same =>
    other ((UInt8.xor_right_inj _).1 (same.trans UInt8.xor_zero.symm))
  have replayed : ∀ tail, ChangeLog.openFile (prior.file ++ tail) =
      (ChangeLog.openFile prior.file).bind fun next => next.replay tail := by
    rw [recorded]
    exact ChangeLog.openFile_recordAll_append small (by omega)
  -- the file from the frame with the other byte on
  obtain ⟨tail, shape⟩ : ∃ tail, tail =
      ((prior.frame c).bytes ++ (((prior.record c).frame d).bytes ++ rest)).set k
        ((prior.frame c).bytes[k] ^^^ mask) := ⟨_, rfl⟩
  have cut : Frame.Cut tail ↔ Frame.InLength k ∧ Frame.announced tail ≤ Frame.payloadLimit ∧
      tail.length < Frame.overhead + Frame.announced tail :=
    shape ▸ Frame.cut_tampered_iff fits k _ _
  have noticed (next : ChangeLog) (whole : ¬ Frame.Cut tail) :
      ∃ fault, next.replay tail = .error fault := by
    rw [shape] at whole ⊢
    exact ChangeLog.replay_of_tampered fits rfl (filled d (by simp)) rfl inside own whole
  refine ⟨prior.file ++ tail, ?_, ?_⟩
  · rw [written, shape, Damage.applyTo?_flip inside]
  rw [List.drop_left' rfl, openLog_closed, replayed]
  split
  · next long =>
    rw [List.length_append, Nat.add_lt_add_iff_left, ← cut] at long
    have same : (ChangeLog.openFile prior.file).bind (fun next => next.replay tail) =
        ChangeLog.openFile prior.file := by
      cases ChangeLog.openFile prior.file with
      | error fault => rfl
      | ok next => exact ChangeLog.replay_of_end (Frame.read_of_cut long)
    refine ⟨?_, same, fun reads => ?_⟩
    · rw [ChangeLog.sequence_recordAll, List.length_cons]
      omega
    · have framed : ∀ b ∈ before, b.Framed := fun b mem => ⟨filled' b mem, small b mem, reads b mem⟩
      rw [same, recorded, ChangeLog.openFile_framed framed (by omega)]
  · next whole =>
    rw [List.length_append, Nat.add_lt_add_iff_left, ← cut] at whole
    cases ChangeLog.openFile prior.file with
    | error fault => exact ⟨_, rfl⟩
    | ok next =>
      obtain ⟨fault, refused⟩ := noticed next whole
      refine ⟨fault.toError, ?_⟩
      rw [show (Except.ok next).bind (fun next => next.replay tail) = .error fault from refused]

/-! ## Two counters -/

theorem Damage.length_of_flip {position : Nat} {mask : UInt8} {file damaged : List UInt8}
    (flipped : (Damage.flip position mask).applyTo? file = some damaged) :
    damaged.length = file.length := by
  rw [Damage.applyTo?] at flipped
  obtain ⟨b, -, rfl⟩ := Option.map_eq_some_iff.1 flipped
  exact List.length_set

namespace ChangeLog

/-- Nothing is left of the two counters: the length of the first frame is sixty-five thousand bytes
too large. -/
theorem counters_lost : ∃ log damaged, counters.foldlM commit .empty = .ok log ∧
    log.sequence = 2 ∧ (Damage.flip 14 1).applyTo? log.file = some damaged ∧
    (Handle.closed damaged).openLog = (⟨some [], some (.log .empty)⟩, .ok .empty) := by
  have filled : ∀ x ∈ counters, x.isEmpty = false := fun x mem => (framed_counters x mem).filled
  have committed : counters.foldlM commit .empty = .ok (empty.recordAll counters) :=
    (foldlM_commit_eq_ok filled).2 ⟨fun x mem => (framed_counters x mem).small, rfl⟩
  have size : (empty.recordAll counters).file.length = 214 := by
    rw [file_recordAll]
    exact length_counters 2
  have first : (empty.frame (.put .empty "a" (.long 1))).bytes.length = 107 := by
    have taken := length_counters 1
    rwa [show counters.take 1 = [.put .empty "a" (.long 1)] from rfl, frames, List.flatMap_cons,
      frames, List.flatMap_nil, List.append_nil] at taken
  obtain ⟨damaged, tampered, outcome⟩ :=
    @Handle.openLog_tampered [] [.put .empty "b" (.long 2)] (.put .empty "a" (.long 1)) .empty
      (empty.recordAll counters) 14 1 filled rfl committed (by rw [size]; decide)
      (List.cons_ne_nil _ _) (by rw [first]; decide) (by decide)
  have announced : ((Damage.flip 14 1).applyTo? (empty.recordAll counters).file).map
      Frame.announced = some 65591 := by decide +kernel
  have length : damaged.length = 214 := by
    rw [Damage.length_of_flip tampered, size]
  refine ⟨_, damaged, committed, rfl, tampered, ?_⟩
  rw [show (14 : Nat) = empty.file.length + 14 from rfl, tampered, Option.map_some,
    Option.some.injEq] at announced
  rw [if_pos] at outcome
  · exact outcome.2.2 (List.forall_mem_nil _)
  · rw [show damaged.drop empty.file.length = damaged from rfl, announced, length]
    decide

end ChangeLog
end Reconfig
