/-
Frames of the change log.

A frame holds the payload between marks that let a reader tell a frame from one
that was cut off while it was written, and from one that was altered. Each
field before the payload has a fixed width, so a reader knows from the front
of a frame how long it is.
-/
import Reconfig.Digest.Chain

namespace Reconfig

structure Frame where
  sequence : Nat
  payload : List UInt8
  /-- The chain hash up to and including this frame. -/
  hash : List UInt8
deriving DecidableEq

namespace Frame

def magic : List UInt8 := [0x44, 0x43, 0x4c, 0x31]

def payloadLimit : Nat := 16 * 1024 * 1024

/-- The sequence and the length of the payload. -/
def headerSize : Nat := 12

def checksumSize : Nat := 4

def overhead : Nat := magic.length + headerSize + Digest.size + checksumSize

/-- The frame that follows a frame with the given hash. -/
def next (previous : List UInt8) (sequence : Nat) (payload : List UInt8) : Frame :=
  ⟨sequence, payload, Digest.chain previous sequence payload⟩

/-- All that the checksum covers: everything between the mark and the checksum. -/
def body (f : Frame) : List UInt8 :=
  Digest.littleEndian 8 f.sequence ++ Digest.littleEndian 4 f.payload.length ++ f.payload ++ f.hash

def checksum (body : List UInt8) : List UInt8 :=
  Digest.littleEndian checksumSize (Digest.crc32 body).toNat

def bytes (f : Frame) : List UInt8 := magic ++ f.body ++ checksum f.body

inductive Fault where
  | badMagic
  | tooLong (sequence length : Nat)
  | badChecksum (sequence : Nat)
deriving DecidableEq

def Fault.message : Fault → String
  | .badMagic => "invalid frame magic"
  | .tooLong sequence length =>
    s!"frame {sequence} declares {length} payload bytes, limit is {payloadLimit}"
  | .badChecksum sequence => s!"checksum mismatch in frame {sequence}"

inductive Reading where
  | done
  /-- The bytes end within a frame. -/
  | torn
  | frame (f : Frame) (rest : List UInt8)

/-- Reads what follows the mark. The length is looked at before the payload, so
a frame that may not be is refused even where its end is missing. -/
def readBody (s : List UInt8) : Except Fault Reading :=
  if s.length < headerSize then .ok .torn
  else
    let sequence := Digest.ofLittleEndian (s.take 8)
    let length := Digest.ofLittleEndian ((s.drop 8).take 4)
    let rest := s.drop headerSize
    if payloadLimit < length then .error (.tooLong sequence length)
    else if rest.length < length + Digest.size + checksumSize then .ok .torn
    else
      let covered := s.take (headerSize + length + Digest.size)
      let tail := s.drop (headerSize + length + Digest.size)
      if checksum covered ≠ tail.take checksumSize then .error (.badChecksum sequence)
      else
        let f := ⟨sequence, rest.take length, (rest.drop length).take Digest.size⟩
        .ok (.frame f (tail.drop checksumSize))

def read (s : List UInt8) : Except Fault Reading :=
  if s.isEmpty then .ok .done
  else if s.length < magic.length then .ok .torn
  else if s.take magic.length ≠ magic then .error .badMagic
  else readBody (s.drop magic.length)

theorem length_lt_of_readBody {s rest : List UInt8} {f : Frame}
    (h : readBody s = .ok (.frame f rest)) : rest.length < s.length := by
  unfold readBody at h
  split at h
  · simp at h
  · dsimp only at h
    split at h
    · simp at h
    · split at h
      · simp at h
      · split at h
        · simp at h
        · injection h with h
          injection h with _ h
          subst h
          simp only [List.drop_drop, List.length_drop, headerSize, checksumSize] at *
          omega

/-- A frame takes bytes, so reading frame after frame comes to an end. -/
theorem length_lt_of_read {s rest : List UInt8} {f : Frame}
    (h : read s = .ok (.frame f rest)) : rest.length < s.length := by
  unfold read at h
  split at h
  · simp at h
  · split at h
    · simp at h
    · split at h
      · simp at h
      · have := length_lt_of_readBody h
        simp only [List.length_drop] at this
        omega

end Frame
end Reconfig
