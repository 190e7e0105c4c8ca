/-
What can happen to the file of a change log from outside.

A crash leaves a file that is cut short, and a failing disk one with other
bytes. Someone who knows the format can add frames that are well formed.
-/
import Reconfig.Store.Frame

namespace Reconfig

inductive Damage where
  | truncate (position : Nat)
  | cut (count : Nat)
  | flip (position : Nat) (mask : UInt8)
  | overwrite (position : Nat) (bytes : List UInt8)
  | append (bytes : List UInt8)
  | replace (bytes : List UInt8)
  /-- Appends a well-formed frame. It follows the hash that is given, or the
  bytes that stand where the last frame has its hash. -/
  | frame (previous : Option (List UInt8)) (sequence : Nat) (payload : List UInt8)

namespace Damage

/-- The bytes of the file where its last frame has its hash. -/
def lastHash (file : List UInt8) : List UInt8 :=
  let tail := Digest.size + Frame.checksumSize
  if file.length < tail then Digest.zero else (file.drop (file.length - tail)).take Digest.size

/-- The file afterwards. A position beyond its end names no byte of it. -/
def applyTo? (d : Damage) (file : List UInt8) : Option (List UInt8) :=
  match d with
  | .truncate position => if position ≤ file.length then some (file.take position) else none
  | .cut count => some (file.take (file.length - count))
  | .flip position mask => (file[position]?).map fun b => file.set position (b ^^^ mask)
  | .overwrite position bytes =>
    let stop := position + bytes.length
    if stop ≤ file.length then some (file.take position ++ bytes ++ file.drop stop) else none
  | .append bytes => some (file ++ bytes)
  | .replace bytes => some bytes
  | .frame previous sequence payload =>
    some (file ++ (Frame.next (previous.getD (lastHash file)) sequence payload).bytes)

end Damage
end Reconfig
