/-
The cyclic redundancy check of thirty-two bits.
-/
namespace Reconfig
namespace Digest
namespace Crc32

/-- The generator with its bits in reverse order. -/
def generator : UInt32 := 0xedb88320

def shiftBit (r : UInt32) : UInt32 :=
  if r &&& 1 = 1 then (r >>> 1) ^^^ generator else r >>> 1

def shiftByte (r : UInt32) : UInt32 :=
  shiftBit (shiftBit (shiftBit (shiftBit (shiftBit (shiftBit (shiftBit (shiftBit r)))))))

def update (r : UInt32) (b : UInt8) : UInt32 :=
  let low := (r ^^^ b.toUInt32) &&& 0xff
  (r >>> 8) ^^^ shiftByte low

end Crc32

/-- The register starts with all bits set and is inverted at the end. -/
def crc32 (bytes : List UInt8) : UInt32 := (bytes.foldl Crc32.update 0xffffffff) ^^^ 0xffffffff

end Digest
end Reconfig
