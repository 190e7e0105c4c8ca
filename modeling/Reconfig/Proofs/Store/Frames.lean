/-
Reading frames back, whole or cut off.

A reader that stands before a frame gets this frame, whatever follows it. If the bytes
end within the frame, the reader can tell: the front of a frame says how long it is.
-/
import Reconfig.Store.Frame

namespace Reconfig
namespace Digest

@[simp] theorem length_wordBytes (w : UInt32) : (Blake3.wordBytes w).length = 4 := rfl

@[simp] theorem length_blake3 (bytes : List UInt8) : (blake3 bytes).length = size := by
  rw [blake3, List.length_flatMap]
  simp only [length_wordBytes, List.map_const', List.sum_replicate_nat, Vector.length_toList, size]

end Digest

namespace Frame

/-- The frame can be written: its numbers fit their fields. -/
structure Fits (f : Frame) : Prop where
  sequence : f.sequence < 2 ^ 64
  payload : f.payload.length ≤ payloadLimit
  hash : f.hash.length = Digest.size

/-- What stands before the payload, but for the mark. -/
def header (f : Frame) : List UInt8 :=
  Digest.littleEndian 8 f.sequence ++ Digest.littleEndian 4 f.payload.length

variable {f : Frame} {s : List UInt8}

theorem length_header (f : Frame) : f.header.length = headerSize := by
  simp [header, headerSize]

theorem body_eq (f : Frame) : f.body = f.header ++ (f.payload ++ f.hash) := by
  simp [body, header]

theorem bytes_append (f : Frame) (rest : List UInt8) : f.bytes ++ rest =
    (magic ++ f.header) ++ (f.payload ++ (f.hash ++ (checksum f.body ++ rest))) := by
  simp [bytes, body_eq]

theorem length_checksum (body : List UInt8) : (checksum body).length = checksumSize :=
  Digest.littleEndian_length _ _

theorem length_bytes (fits : f.Fits) : f.bytes.length = overhead + f.payload.length := by
  have hash := fits.hash
  simp only [bytes, body_eq, checksum, List.length_append, length_header, hash,
    Digest.littleEndian_length, overhead]
  omega

theorem length_bytes_pos (f : Frame) : 0 < f.bytes.length := by
  rw [bytes, List.length_append, List.length_append]
  have : magic.length = 4 := rfl
  omega

theorem sequence_header (fits : f.Fits) (tail : List UInt8) :
    Digest.ofLittleEndian ((f.header ++ tail).take 8) = f.sequence := by
  rw [header, List.append_assoc, List.take_left' (Digest.littleEndian_length 8 _),
    Digest.ofLittleEndian_littleEndian _ _ fits.sequence]

theorem length_payload_header (fits : f.Fits) (tail : List UInt8) :
    Digest.ofLittleEndian (((f.header ++ tail).drop 8).take 4) = f.payload.length := by
  have small : f.payload.length < 256 ^ 4 := by
    have := fits.payload
    unfold payloadLimit at this
    omega
  rw [header, List.append_assoc, List.drop_left' (Digest.littleEndian_length 8 _),
    List.take_left' (Digest.littleEndian_length 4 _),
    Digest.ofLittleEndian_littleEndian _ _ small]

theorem drop_header (f : Frame) (tail : List UInt8) :
    (f.header ++ tail).drop headerSize = tail :=
  List.drop_left' f.length_header

/-- The header alone tells how much has to follow. -/
theorem readBody_header (fits : f.Fits) (tail : List UInt8) :
    readBody (f.header ++ tail) =
      if tail.length < f.payload.length + Digest.size + checksumSize then .ok .torn
      else
        let covered := (f.header ++ tail).take (headerSize + f.payload.length + Digest.size)
        let after := (f.header ++ tail).drop (headerSize + f.payload.length + Digest.size)
        if checksum covered ≠ after.take checksumSize then .error (.badChecksum f.sequence)
        else .ok (.frame ⟨f.sequence, tail.take f.payload.length,
          (tail.drop f.payload.length).take Digest.size⟩ (after.drop checksumSize)) := by
  have room : ¬ (f.header ++ tail).length < headerSize := by
    rw [List.length_append, length_header]
    omega
  have small : ¬ payloadLimit < f.payload.length := Nat.not_lt.2 fits.payload
  rw [readBody, if_neg room]
  simp only [sequence_header fits, length_payload_header fits, drop_header, if_neg small]

/-! ## The beginning of a frame -/

/-- The length that the front of a frame gives for its payload. -/
def announced (s : List UInt8) : Nat :=
  Digest.ofLittleEndian ((s.drop (magic.length + 8)).take 4)

/-- The bytes end before the frame does that they begin. -/
inductive Cut (s : List UInt8) : Prop
  | mark (short : s.length < magic.length)
  | header (marked : s.take magic.length = magic) (short : s.length < magic.length + headerSize)
  | rest (marked : s.take magic.length = magic) (allowed : announced s ≤ payloadLimit)
      (short : s.length < overhead + announced s)

theorem cut_nil : Cut [] := .mark (by decide)

theorem read_of_marked (marked : s.take magic.length = magic) :
    read s = readBody (s.drop magic.length) := by
  have long : ¬ s.length < magic.length := by
    have := congrArg List.length marked
    rw [List.length_take] at this
    omega
  have filled : ¬ s.isEmpty = true := by
    rw [List.isEmpty_iff_length_eq_zero]
    have : magic.length = 4 := rfl
    omega
  rw [read, if_neg filled, if_neg long, if_neg fun other => other marked]

theorem read_of_cut (cut : Cut s) : read s = .ok .done ∨ read s = .ok .torn := by
  cases cut with
  | mark short =>
    by_cases none : s.isEmpty = true
    · exact .inl (by rw [read, if_pos none])
    · exact .inr (by rw [read, if_neg none, if_pos short])
  | header marked short =>
    refine .inr ?_
    rw [read_of_marked marked, readBody, if_pos]
    rw [List.length_drop]
    have : headerSize = 12 := rfl
    omega
  | rest marked allowed short =>
    refine .inr ?_
    have width : overhead = magic.length + headerSize + Digest.size + checksumSize := rfl
    have header : headerSize = 12 := rfl
    rw [read_of_marked marked, readBody]
    by_cases headless : (s.drop magic.length).length < headerSize
    · rw [if_pos headless]
    · have given : Digest.ofLittleEndian (((s.drop magic.length).drop 8).take 4) = announced s := by
        rw [List.drop_drop, announced]
      rw [if_neg headless]
      simp only [given]
      rw [if_neg (Nat.not_lt.2 allowed), if_pos]
      rw [List.length_drop] at headless
      rw [List.length_drop, List.length_drop]
      omega

theorem announced_bytes (fits : f.Fits) (rest : List UInt8) :
    announced (f.bytes ++ rest) = f.payload.length := by
  rw [announced, bytes_append, List.append_assoc, ← List.drop_drop, List.drop_left' rfl,
    length_payload_header fits]

theorem cut_take (fits : f.Fits) {n : Nat} (part : n < f.bytes.length) : Cut (f.bytes.take n) := by
  have size := length_bytes fits
  have length : (f.bytes.take n).length = n := List.length_take_of_le (Nat.le_of_lt part)
  have front : f.bytes.take magic.length = magic := by
    rw [bytes, List.append_assoc, List.take_left' rfl]
  by_cases short : n < magic.length
  · exact .mark (by rwa [length])
  have marked : (f.bytes.take n).take magic.length = magic := by
    rw [List.take_take, Nat.min_eq_left (Nat.not_lt.1 short), front]
  by_cases headless : n < magic.length + headerSize
  · exact .header marked (by rwa [length])
  have given : announced (f.bytes.take n) = f.payload.length := by
    have header : headerSize = 12 := rfl
    have whole := announced_bytes fits []
    rw [List.append_nil] at whole
    rw [← whole, announced, announced, List.drop_take, List.take_take, Nat.min_eq_left (by omega)]
  exact .rest marked (given ▸ fits.payload) (by rwa [length, given, ← size])

/-! ## Whole frames -/

/-- The checksum alone decides about a frame that is there from end to end. -/
theorem read_of_sealed (fits : f.Fits) {stamp : List UInt8} (width : stamp.length = checksumSize)
    (rest : List UInt8) : read (magic ++ (f.body ++ (stamp ++ rest))) =
      if checksum f.body = stamp then .ok (.frame f rest)
      else .error (.badChecksum f.sequence) := by
  have hash := fits.hash
  have covered : f.body.length = headerSize + f.payload.length + Digest.size := by
    rw [body_eq, List.length_append, List.length_append, length_header, hash]
    omega
  have header : f.body ++ (stamp ++ rest) =
      f.header ++ (f.payload ++ (f.hash ++ (stamp ++ rest))) := by
    rw [body_eq]
    simp only [List.append_assoc]
  have enough : ¬ (f.payload ++ (f.hash ++ (stamp ++ rest))).length <
      f.payload.length + Digest.size + checksumSize := by
    simp only [List.length_append, hash, width]
    omega
  rw [read_of_marked (List.take_left' rfl), List.drop_left' rfl, header, readBody_header fits,
    if_neg enough, ← header]
  simp only [List.take_left' covered, List.drop_left' covered, List.take_left' width,
    List.drop_left' width, List.take_left' rfl, List.drop_left' rfl, List.take_left' hash]
  by_cases right : checksum f.body = stamp
  · rw [if_pos right, if_neg fun other => other right]
  · rw [if_neg right, if_pos right]

/-- A frame is read back, whatever follows it. -/
theorem read_bytes (fits : f.Fits) (rest : List UInt8) :
    read (f.bytes ++ rest) = .ok (.frame f rest) := by
  have split : f.bytes ++ rest = magic ++ (f.body ++ (checksum f.body ++ rest)) := by
    simp [bytes]
  rw [split, read_of_sealed fits (length_checksum _), if_pos rfl]

end Frame
end Reconfig
