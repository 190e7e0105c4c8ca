/-
The change log: a file of frames, each of which holds one change-set.

Opening the log replays its frames. A frame that the end of the file cuts off
was never reported as committed, so it is dropped and the file is cut back to
the frames before it. Anything else that does not verify is a fault, and the
file stays as it is.
-/
import Reconfig.Error
import Reconfig.Json.Parser
import Reconfig.Store.ChangeSet
import Reconfig.Store.Frame

namespace Reconfig

structure ChangeLog where
  file : List UInt8
  space : KeySpace
  /-- The number of frames, which is the sequence of the next one. -/
  sequence : Nat
  /-- The hash of the last frame. -/
  head : List UInt8

namespace ChangeLog

inductive Fault where
  | frame (fault : Frame.Fault)
  | wrongSequence (found expected : Nat)
  | wrongHash (expected actual : List UInt8)
  | badPayload
  | oversized (size : Nat)
deriving DecidableEq

def Fault.toError : Fault → Error
  | .frame fault => .changeLog fault.message
  | .wrongSequence found expected =>
    .changeLog s!"frame sequence {found} found where {expected} was expected"
  | .wrongHash expected actual => .checksumMismatch (Text.hex expected) (Text.hex actual)
  | .badPayload => .serialization "frame payload"
  | .oversized size => .changeLog s!"change-set of {size} bytes exceeds the frame limit"

def empty : ChangeLog := ⟨[], ∅, 0, Digest.zero⟩

/-- The change-set of a frame that follows the frames of the log. -/
def check (log : ChangeLog) (f : Frame) : Except Fault ChangeSet :=
  let expected := Digest.chain log.head f.sequence f.payload
  if f.sequence ≠ log.sequence then .error (.wrongSequence f.sequence log.sequence)
  else if expected ≠ f.hash then .error (.wrongHash expected f.hash)
  else
    match (Json.ofBytes? f.payload).bind ChangeSet.ofJson? with
    | none => .error .badPayload
    | some changes => .ok changes

def extend (log : ChangeLog) (f : Frame) (changes : ChangeSet) : ChangeLog :=
  ⟨log.file ++ f.bytes, changes.applyTo log.space, log.sequence + 1, f.hash⟩

/-- Reads the frames at the front of the bytes onto the log. -/
def replay (log : ChangeLog) (s : List UInt8) : Except Fault ChangeLog :=
  match _reading : Frame.read s with
  | .error fault => .error (.frame fault)
  | .ok .done => .ok log
  | .ok .torn => .ok log
  | .ok (.frame f rest) =>
    match log.check f with
    | .error fault => .error fault
    | .ok changes => replay (log.extend f changes) rest
termination_by s.length
decreasing_by exact Frame.length_lt_of_read (by assumption)

def openFile (file : List UInt8) : Except Fault ChangeLog := replay empty file

def get? (log : ChangeLog) (key : String) : Option Value := log.space.get? key

/-- Appends the change-set as a frame at the end of the file. A change-set
without writes leaves no frame. -/
def commit (log : ChangeLog) (changes : ChangeSet) : Except Fault ChangeLog :=
  if changes.isEmpty then .ok log
  else
    let payload := changes.toJson.bytes
    if Frame.payloadLimit < payload.length then .error (.oversized payload.length)
    else .ok (log.extend (Frame.next log.head log.sequence payload) changes)

end ChangeLog
end Reconfig
