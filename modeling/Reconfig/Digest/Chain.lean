/-
Hashes over texts and over the frames of a log.
-/
import Reconfig.Digest.Blake3
import Reconfig.Digest.Crc32
import Reconfig.Json.Printer
import Reconfig.Text.Hex

namespace Reconfig
namespace Digest

def size : Nat := 32

/-- A number in the given count of bytes, the least significant byte first. -/
def littleEndian : Nat → Nat → List UInt8
  | 0, _ => []
  | count + 1, n => UInt8.ofNat n :: littleEndian count (n / 256)

def ofLittleEndian (bytes : List UInt8) : Nat := bytes.foldr (fun b n => b.toNat + 256 * n) 0

def zero : List UInt8 := List.replicate size 0

/-- The hash of a frame covers the hash of the frame before it, so no frame can
be left out or moved. -/
def chain (previous : List UInt8) (sequence : Nat) (payload : List UInt8) : List UInt8 :=
  blake3 (previous ++ littleEndian 8 sequence ++ payload)

def ofJson (j : Json) : String := Text.hex (blake3 j.bytes)

@[simp] theorem littleEndian_length (count n : Nat) : (littleEndian count n).length = count := by
  induction count generalizing n with
  | zero => rfl
  | succ count ih => simp [littleEndian, ih]

theorem ofLittleEndian_littleEndian (count n : Nat) (h : n < 256 ^ count) :
    ofLittleEndian (littleEndian count n) = n := by
  induction count generalizing n with
  | zero => simp at h; simp [littleEndian, ofLittleEndian, h]
  | succ count ih =>
    have small : n / 256 < 256 ^ count := by
      rw [Nat.pow_succ] at h
      omega
    have step := ih (n / 256) small
    simp only [ofLittleEndian] at step
    simp only [littleEndian, ofLittleEndian, List.foldr_cons, step, UInt8.toNat_ofNat']
    omega

end Digest
end Reconfig
