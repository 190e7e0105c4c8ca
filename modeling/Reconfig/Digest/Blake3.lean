/-
The BLAKE3 hash with thirty-two bytes of output.
-/
import Reconfig.Number.Power

namespace Reconfig
namespace Digest
namespace Blake3

def initial : Vector UInt32 8 :=
  #v[0x6a09e667, 0xbb67ae85, 0x3c6ef372, 0xa54ff53a, 0x510e527f, 0x9b05688c, 0x1f83d9ab, 0x5be0cd19]

def chunkStart : UInt32 := 1
def chunkEnd : UInt32 := 2
def parent : UInt32 := 4
def root : UInt32 := 8

def blockSize : Nat := 64
def chunkSize : Nat := 1024

def rotateRight (x : UInt32) (n : UInt32) : UInt32 := (x >>> n) ||| (x <<< (32 - n))

/-- The order in which a round takes the words of the block, for each round. -/
def schedules : List (List (Fin 16)) :=
  [[0, 1, 2, 3, 4, 5, 6, 7, 8, 9, 10, 11, 12, 13, 14, 15],
   [2, 6, 3, 10, 7, 0, 4, 13, 1, 11, 12, 5, 9, 14, 15, 8],
   [3, 4, 10, 12, 13, 2, 7, 14, 6, 5, 9, 0, 11, 15, 8, 1],
   [10, 7, 12, 9, 14, 3, 13, 15, 4, 0, 11, 2, 5, 8, 1, 6],
   [12, 13, 9, 11, 15, 10, 14, 8, 7, 2, 5, 3, 0, 1, 6, 4],
   [9, 14, 11, 5, 8, 12, 15, 1, 13, 3, 0, 10, 2, 6, 4, 7],
   [11, 15, 5, 0, 1, 9, 8, 6, 14, 10, 2, 12, 3, 4, 7, 13]]

@[inline] def mix (v : Vector UInt32 16) (a b c d : Fin 16) (x y : UInt32) : Vector UInt32 16 :=
  let va := v[a] + v[b] + x
  let vd := rotateRight (v[d] ^^^ va) 16
  let vc := v[c] + vd
  let vb := rotateRight (v[b] ^^^ vc) 12
  let va := va + vb + y
  let vd := rotateRight (vd ^^^ va) 8
  let vc := vc + vd
  let vb := rotateRight (vb ^^^ vc) 7
  (((v.set a va).set b vb).set c vc).set d vd

/-- The columns of the state first and then its diagonals. -/
def round (v m : Vector UInt32 16) (order : List (Fin 16)) : Vector UInt32 16 :=
  match order with
  | [a, b, c, d, e, f, g, h, i, j, k, l, n, o, p, q] =>
    let v := mix v 0 4 8 12 m[a] m[b]
    let v := mix v 1 5 9 13 m[c] m[d]
    let v := mix v 2 6 10 14 m[e] m[f]
    let v := mix v 3 7 11 15 m[g] m[h]
    let v := mix v 0 5 10 15 m[i] m[j]
    let v := mix v 1 6 11 12 m[k] m[l]
    let v := mix v 2 7 8 13 m[n] m[o]
    mix v 3 4 9 14 m[p] m[q]
  | _ => v

/-- The chaining value after one block. The counter numbers the chunk. -/
def compress (cv : Vector UInt32 8) (m : Vector UInt32 16) (counter : UInt64) (length : UInt32)
    (flags : UInt32) : Vector UInt32 8 :=
  let v : Vector UInt32 16 :=
    #v[cv[0], cv[1], cv[2], cv[3], cv[4], cv[5], cv[6], cv[7],
       initial[0], initial[1], initial[2], initial[3],
       counter.toUInt32, (counter >>> 32).toUInt32, length, flags]
  let v := schedules.foldl (round · m) v
  Vector.ofFn fun i => v[i.val] ^^^ v[i.val + 8]

/-- The word of four bytes, the least significant byte first. A place beyond the
end holds zero. -/
def word (bytes : ByteArray) (i : Nat) : UInt32 :=
  let byteAt (k : Nat) : UInt32 := if h : k < bytes.size then (bytes[k]).toUInt32 else 0
  byteAt i ||| (byteAt (i + 1) <<< 8) ||| (byteAt (i + 2) <<< 16) ||| (byteAt (i + 3) <<< 24)

def block (bytes : ByteArray) (start stop : Nat) : Vector UInt32 16 :=
  if start + blockSize ≤ stop then Vector.ofFn fun i => word bytes (start + 4 * i.val)
  else
    let tail := bytes.extract start stop
    Vector.ofFn fun i => word tail (4 * i.val)

/-- The chaining value of the blocks of a chunk from the position on. The first
block has a flag of its own, and so has the last. -/
def chunkFrom (bytes : ByteArray) (counter : UInt64) (rootFlag : UInt32) :
    Nat → Vector UInt32 8 → UInt32 → Nat → Nat → Vector UInt32 8
  | 0, cv, _, _, _ => cv
  | fuel + 1, cv, first, start, stop =>
    if stop ≤ start + blockSize then
      compress cv (block bytes start stop) counter (stop - start).toUInt32
        (first ||| chunkEnd ||| rootFlag)
    else
      chunkFrom bytes counter rootFlag fuel
        (compress cv (block bytes start stop) counter blockSize.toUInt32 first) 0
        (start + blockSize) stop

def chunk (bytes : ByteArray) (index : Nat) (rootFlag : UInt32) : Vector UInt32 8 :=
  let start := index * chunkSize
  chunkFrom bytes index.toUInt64 rootFlag 16 initial chunkStart start
    (min bytes.size (start + chunkSize))

def join (left right : Vector UInt32 8) (rootFlag : UInt32) : Vector UInt32 8 :=
  compress initial (left ++ right) 0 blockSize.toUInt32 (parent ||| rootFlag)

/-- The greatest power of two below a number greater than one. -/
def leftSize (n : Nat) : Nat := 2 ^ (n - 1).log2

/-- The chaining value of the tree over some of the chunks. The left half is the
greatest whole binary tree that leaves a chunk for the right half. -/
def tree (bytes : ByteArray) (rootFlag : UInt32) : Nat → Nat → Nat → Vector UInt32 8
  | 0, _, _ => initial
  | fuel + 1, first, count =>
    if count ≤ 1 then chunk bytes first rootFlag
    else
      let left := leftSize count
      join (tree bytes 0 fuel first left) (tree bytes 0 fuel (first + left) (count - left)) rootFlag

def wordBytes (w : UInt32) : List UInt8 :=
  [w.toUInt8, (w >>> 8).toUInt8, (w >>> 16).toUInt8, (w >>> 24).toUInt8]

end Blake3

/-- Each level of the tree halves the number of chunks, so sixty-five levels
hold any input. -/
def blake3 (bytes : List UInt8) : List UInt8 :=
  let input := bytes.toByteArray
  let chunks := max 1 ((input.size + Blake3.chunkSize - 1) / Blake3.chunkSize)
  (Blake3.tree input Blake3.root 65 0 chunks).toList.flatMap Blake3.wordBytes

end Digest
end Reconfig
