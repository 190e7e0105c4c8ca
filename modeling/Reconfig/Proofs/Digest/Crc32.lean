/-
The cyclic redundancy check notices every change of a single byte.

A step of the register can be undone, whatever byte it takes in, and different bytes
take it to different places. So two texts that differ in one byte never meet again.
-/
import Mathlib.Logic.Function.Iterate
import Reconfig.Digest.Crc32

namespace Reconfig
namespace Digest
namespace Crc32

theorem and_one_eq_one_iff (r : UInt32) : r &&& 1 = 1 ↔ r.toBitVec.getLsbD 0 = true := by
  rw [← UInt32.toBitVec_inj, UInt32.toBitVec_and]
  show r.toBitVec &&& 1#32 = 1#32 ↔ _
  rw [BitVec.and_one_eq_setWidth_ofBool_getLsbD]
  cases r.toBitVec.getLsbD 0 <;> decide

theorem toBitVec_shiftBit (r : UInt32) : (shiftBit r).toBitVec =
    (r.toBitVec >>> 1) ^^^ (if r.toBitVec.getLsbD 0 then generator.toBitVec else 0) := by
  unfold shiftBit
  simp only [and_one_eq_one_iff]
  split <;> simp

theorem shiftBit_xor (a b : UInt32) : shiftBit (a ^^^ b) = shiftBit a ^^^ shiftBit b := by
  rw [← UInt32.toBitVec_inj]
  simp only [toBitVec_shiftBit, UInt32.toBitVec_xor, BitVec.ushiftRight_xor_distrib,
    BitVec.getLsbD_xor]
  cases a.toBitVec.getLsbD 0 <;> cases b.toBitVec.getLsbD 0 <;> simp
  · ac_rfl
  · ac_rfl
  · rw [BitVec.xor_assoc (a.toBitVec >>> 1), BitVec.xor_comm (b.toBitVec >>> 1),
      ← BitVec.xor_assoc generator.toBitVec, BitVec.xor_self, BitVec.zero_xor]

/-- The generator fills the bit that the shift left free, so it shows whether it was added. -/
theorem shiftBit_injective : Function.Injective shiftBit := by
  intro a b same
  have same := congrArg UInt32.toBitVec same
  rw [toBitVec_shiftBit, toBitVec_shiftBit] at same
  have top : ∀ r : BitVec 32, ∀ low : Bool,
      (r >>> 1 ^^^ if low then generator.toBitVec else 0).getLsbD 31 = low := by
    intro r low
    cases low <;> simp [generator]
  have low : a.toBitVec.getLsbD 0 = b.toBitVec.getLsbD 0 := by
    rw [← top a.toBitVec (a.toBitVec.getLsbD 0), same, top]
  rw [low] at same
  have shifted : a.toBitVec >>> 1 = b.toBitVec >>> 1 := (BitVec.xor_left_inj _).1 same
  rw [← UInt32.toBitVec_inj]
  refine BitVec.eq_of_getLsbD_eq fun i _ => ?_
  cases i with
  | zero => exact low
  | succ i =>
    have := congrArg (BitVec.getLsbD · i) shifted
    simpa [Nat.add_comm] using this

theorem shiftByte_eq_iterate : shiftByte = shiftBit^[8] := rfl

theorem shiftByte_injective : Function.Injective shiftByte := shiftBit_injective.iterate 8

theorem shiftByte_xor (a b : UInt32) : shiftByte (a ^^^ b) = shiftByte a ^^^ shiftByte b := by
  simp only [shiftByte, shiftBit_xor]

/-- Bits that are clear are only shifted out. -/
theorem iterate_shiftBit {n : Nat} {r : UInt32} (clear : ∀ i < n, r.toBitVec.getLsbD i = false) :
    (shiftBit^[n] r).toBitVec = r.toBitVec >>> n := by
  induction n with
  | zero => simp
  | succ n ih =>
    have shifted := ih fun i small => clear i (Nat.lt_succ_of_lt small)
    have low : (r.toBitVec >>> n).getLsbD 0 = false := by
      simpa using clear n (Nat.lt_succ_self n)
    rw [Function.iterate_succ_apply', toBitVec_shiftBit, shifted, low, BitVec.shiftRight_add]
    simp

/-- Eight steps take the low byte in, and move the others down. -/
theorem shiftByte_eq (r : UInt32) : shiftByte r = (r >>> 8) ^^^ shiftByte (r &&& 0xff) := by
  have low : ∀ i < 8, (0xffffff00#32).getLsbD i = false := by decide
  have high : ∀ i < 24, (0xffffff00#32).getLsbD (8 + i) = true := by decide
  have clear : ∀ i < 8, (r &&& 0xffffff00).toBitVec.getLsbD i = false := by
    intro i small
    rw [UInt32.toBitVec_and, BitVec.getLsbD_and]
    exact (congrArg _ (low i small)).trans (Bool.and_false _)
  have above : shiftByte (r &&& 0xffffff00) = r >>> 8 := by
    rw [← UInt32.toBitVec_inj, shiftByte_eq_iterate, iterate_shiftBit clear]
    refine BitVec.eq_of_getLsbD_eq fun i _ => ?_
    show ((r.toBitVec &&& 0xffffff00#32) >>> 8).getLsbD i = (r.toBitVec >>> 8).getLsbD i
    rw [BitVec.getLsbD_ushiftRight, BitVec.getLsbD_and, BitVec.getLsbD_ushiftRight]
    by_cases small : i < 24
    · rw [high i small, Bool.and_true]
    · rw [BitVec.getLsbD_of_ge r.toBitVec (8 + i) (by omega), Bool.false_and]
  have parts : r = (r &&& 0xffffff00) ^^^ (r &&& 0xff) := by
    rw [← UInt32.toBitVec_inj]
    show r.toBitVec = (r.toBitVec &&& ~~~0xff#32) ^^^ (r.toBitVec &&& 0xff#32)
    ext i
    simp only [BitVec.getElem_xor, BitVec.getElem_and, BitVec.getElem_not]
    cases r.toBitVec[i] <;> cases (0xff#32)[i] <;> rfl
  conv => lhs; rw [parts, shiftByte_xor, above]

theorem update_eq (r : UInt32) (b : UInt8) : update r b = shiftByte (r ^^^ b.toUInt32) := by
  have high : (r ^^^ b.toUInt32) >>> 8 = r >>> 8 := by
    rw [← UInt32.toNat_inj]
    have := b.toNat_lt
    simp only [UInt32.toNat_shiftRight, UInt32.toNat_xor, UInt8.toNat_toUInt32]
    show (r.toNat ^^^ b.toNat) >>> 8 = r.toNat >>> 8
    rw [Nat.shiftRight_xor_distrib, Nat.shiftRight_eq_zero b.toNat 8 this, Nat.xor_zero]
  rw [shiftByte_eq, high]
  rfl

/-- A step loses nothing, neither of the register nor of the byte. -/
theorem update_left_injective (b : UInt8) : Function.Injective (update · b) := by
  intro r r' same
  simp only [update_eq] at same
  exact (UInt32.xor_left_inj _).1 (shiftByte_injective same)

theorem update_right_injective (r : UInt32) : Function.Injective (update r) := by
  intro b b' same
  rw [update_eq, update_eq] at same
  have := (UInt32.xor_right_inj _).1 (shiftByte_injective same)
  exact UInt8.toUInt32_inj.1 this

theorem foldl_update_injective (bytes : List UInt8) :
    Function.Injective (bytes.foldl update) := by
  induction bytes with
  | nil => exact fun _ _ => id
  | cons b rest ih => exact fun r r' same => update_left_injective b (ih same)

end Crc32

/-- A change of one byte shows in the checksum. -/
theorem crc32_ne_of_ne {a b : UInt8} (other : a ≠ b) (before after : List UInt8) :
    crc32 (before ++ a :: after) ≠ crc32 (before ++ b :: after) := by
  intro same
  have same := (UInt32.xor_left_inj _).1 same
  rw [List.foldl_append, List.foldl_append, List.foldl_cons, List.foldl_cons] at same
  exact other (Crc32.update_right_injective _ (Crc32.foldl_update_injective after same))

end Digest
end Reconfig
