/-
What a reader of frames makes of any bytes.

The bytes may come from anywhere. Either they end within a frame, by what the frame says
of itself, or the front of a frame is refused, or a frame stands there whole and its
checksum decides. So a frame that is read has exactly the bytes that its writer gives it.
-/
import Reconfig.Proofs.Store.Frames

namespace Reconfig
namespace Digest

theorem ofLittleEndian_lt (bytes : List UInt8) : ofLittleEndian bytes < 256 ^ bytes.length := by
  induction bytes with
  | nil => exact Nat.one_pos
  | cons b rest ih =>
    have byte := b.toNat_lt
    have step : ofLittleEndian (b :: rest) = b.toNat + 256 * ofLittleEndian rest := rfl
    rw [step, List.length_cons, Nat.pow_succ]
    omega

/-- Nothing is lost when bytes are read as a number. -/
theorem littleEndian_ofLittleEndian (bytes : List UInt8) :
    littleEndian bytes.length (ofLittleEndian bytes) = bytes := by
  induction bytes with
  | nil => rfl
  | cons b rest ih =>
    have byte := b.toNat_lt
    have step : ofLittleEndian (b :: rest) = b.toNat + 256 * ofLittleEndian rest := rfl
    have low : UInt8.ofNat (b.toNat + 256 * ofLittleEndian rest) = b := by
      rw [← UInt8.toNat_inj, UInt8.toNat_ofNat']
      omega
    have high : (b.toNat + 256 * ofLittleEndian rest) / 256 = ofLittleEndian rest := by omega
    rw [List.length_cons, littleEndian, step, low, high, ih]

end Digest

namespace Frame

variable {f : Frame} {s rest : List UInt8}

/-! ## The four things that bytes can be -/

theorem read_of_unmarked (long : magic.length ≤ s.length) (other : s.take magic.length ≠ magic) :
    read s = .error .badMagic := by
  have filled : ¬ s.isEmpty = true := by
    rw [List.isEmpty_iff_length_eq_zero]
    have : magic.length = 4 := rfl
    omega
  rw [read, if_neg filled, if_neg (Nat.not_lt.2 long), if_pos other]

theorem read_of_tooLong (marked : s.take magic.length = magic)
    (room : magic.length + headerSize ≤ s.length) (large : payloadLimit < announced s) :
    ∃ sequence, read s = .error (.tooLong sequence (announced s)) := by
  have headed : ¬ (s.drop magic.length).length < headerSize := by
    rw [List.length_drop]
    omega
  have given : Digest.ofLittleEndian (((s.drop magic.length).drop 8).take 4) = announced s := by
    rw [List.drop_drop, announced]
  refine ⟨Digest.ofLittleEndian ((s.drop magic.length).take 8), ?_⟩
  rw [read_of_marked marked, readBody, if_neg headed]
  simp only [given]
  rw [if_pos large]

/-- Bytes that are long enough can be taken apart as a frame. -/
theorem exists_sealed (marked : s.take magic.length = magic) (allowed : announced s ≤ payloadLimit)
    (whole : overhead + announced s ≤ s.length) :
    ∃ (f : Frame) (stamp rest : List UInt8), f.Fits ∧ stamp.length = checksumSize ∧
      f.payload.length = announced s ∧ s = magic ++ (f.body ++ (stamp ++ rest)) := by
  have width : overhead = magic.length + headerSize + Digest.size + checksumSize := rfl
  have header : headerSize = 12 := rfl
  have split : ∀ (n : Nat) (t : List UInt8), n ≤ t.length → ∃ a b, a.length = n ∧ t = a ++ b :=
    fun n t room =>
      ⟨t.take n, t.drop n, List.length_take_of_le room, (List.take_append_drop n t).symm⟩
  obtain ⟨sequence, t, eight, drop⟩ := split 8 (s.drop magic.length) (by
    rw [List.length_drop]
    omega)
  have s_eq : s = magic ++ (sequence ++ t) := calc
    s = s.take magic.length ++ s.drop magic.length := (List.take_append_drop _ s).symm
    _ = magic ++ (sequence ++ t) := by rw [marked, drop]
  have size := congrArg List.length s_eq
  simp only [List.length_append] at size
  obtain ⟨length, t, four, rfl⟩ := split 4 t (by omega)
  have given : announced s = Digest.ofLittleEndian length := by
    rw [announced, s_eq, ← List.append_assoc magic,
      List.drop_left' (by rw [List.length_append, eight]), List.take_left' four]
  rw [List.length_append] at size
  obtain ⟨payload, t, long, rfl⟩ := split (announced s) t (by omega)
  rw [List.length_append] at size
  obtain ⟨hash, t, digest, rfl⟩ := split Digest.size t (by omega)
  rw [List.length_append] at size
  obtain ⟨stamp, rest, four', rfl⟩ := split checksumSize t (by omega)
  have sequence_lt := Digest.ofLittleEndian_lt sequence
  have numbered := Digest.littleEndian_ofLittleEndian sequence
  have measured := Digest.littleEndian_ofLittleEndian length
  rw [eight] at sequence_lt numbered
  rw [four] at measured
  refine ⟨⟨Digest.ofLittleEndian sequence, payload, hash⟩, stamp, rest,
    ⟨sequence_lt, long ▸ allowed, digest⟩, four', long, ?_⟩
  rw [body, numbered, long, given, measured]
  simpa only [List.append_assoc] using s_eq

/-- How the reader sees any bytes. -/
theorem layout (s : List UInt8) :
    Cut s ∨ magic.length ≤ s.length ∧ s.take magic.length ≠ magic ∨
      s.take magic.length = magic ∧ magic.length + headerSize ≤ s.length ∧
        payloadLimit < announced s ∨
      ∃ (f : Frame) (stamp rest : List UInt8), f.Fits ∧ stamp.length = checksumSize ∧
        f.payload.length = announced s ∧ s = magic ++ (f.body ++ (stamp ++ rest)) := by
  by_cases short : s.length < magic.length
  · exact .inl (.mark short)
  by_cases marked : s.take magic.length = magic
  · by_cases headless : s.length < magic.length + headerSize
    · exact .inl (.header marked headless)
    by_cases allowed : announced s ≤ payloadLimit
    · by_cases torn : s.length < overhead + announced s
      · exact .inl (.rest marked allowed torn)
      · exact .inr (.inr (.inr (exists_sealed marked allowed (Nat.not_lt.1 torn))))
    · exact .inr (.inr (.inl ⟨marked, Nat.not_lt.1 headless, Nat.not_le.1 allowed⟩))
  · exact .inr (.inl ⟨Nat.not_lt.1 short, marked⟩)

/-! ## What a reading tells -/

theorem read_eq_frame_iff :
    read s = .ok (.frame f rest) ↔ f.Fits ∧ s = f.bytes ++ rest := by
  constructor
  · intro reading
    rcases layout s with cut | ⟨long, other⟩ | ⟨marked, room, large⟩ |
      ⟨g, stamp, after, fits, width, -, rfl⟩
    · rcases read_of_cut cut with ended | ended
      · cases reading.symm.trans ended
      · cases reading.symm.trans ended
    · cases reading.symm.trans (read_of_unmarked long other)
    · obtain ⟨sequence, refused⟩ := read_of_tooLong marked room large
      cases reading.symm.trans refused
    · rw [read_of_sealed fits width] at reading
      split at reading
      next right =>
        cases reading
        refine ⟨fits, ?_⟩
        rw [bytes, right]
        simp only [List.append_assoc]
      next => cases reading
  · rintro ⟨fits, rfl⟩
    exact read_bytes fits rest

theorem read_eq_end_iff : read s = .ok .done ∨ read s = .ok .torn ↔ Cut s := by
  refine ⟨fun ended => ?_, read_of_cut⟩
  have unlike : ∀ r, read s = r → r = .ok .done ∨ r = .ok .torn := fun r is => is ▸ ended
  rcases layout s with cut | ⟨long, other⟩ | ⟨marked, room, large⟩ |
    ⟨g, stamp, after, fits, width, -, rfl⟩
  · exact cut
  · rcases unlike _ (read_of_unmarked long other) with no | no <;> cases no
  · obtain ⟨sequence, refused⟩ := read_of_tooLong marked room large
    rcases unlike _ refused with no | no <;> cases no
  · have := unlike _ (read_of_sealed fits width after)
    split at this
    · rcases this with no | no <;> cases no
    · rcases this with no | no <;> cases no

end Frame
end Reconfig
