/-
Bytes written as two hexadecimal digits each.
-/
namespace Reconfig
namespace Text

/-- The digit of a value below sixteen, in lower case. -/
def hexDigit (n : Nat) : Char := n.digitChar

/-- Digits are read in either case. -/
def hexValue? (c : Char) : Option Nat :=
  if '0' ≤ c ∧ c ≤ '9' then some (c.toNat - '0'.toNat)
  else if 'a' ≤ c ∧ c ≤ 'f' then some (c.toNat - 'a'.toNat + 10)
  else if 'A' ≤ c ∧ c ≤ 'F' then some (c.toNat - 'A'.toNat + 10)
  else none

def hexByte (b : UInt8) : List Char := [hexDigit (b.toNat / 16), hexDigit (b.toNat % 16)]

def hex (bytes : List UInt8) : String := String.ofList (bytes.flatMap hexByte)

/-- An odd number of digits is no list of bytes. -/
def ofHexDigits? : List Char → Option (List UInt8)
  | [] => some []
  | [_] => none
  | high :: low :: rest => do
    let h ← hexValue? high
    let l ← hexValue? low
    let bytes ← ofHexDigits? rest
    pure (UInt8.ofNat (16 * h + l) :: bytes)

def ofHex? (s : String) : Option (List UInt8) := ofHexDigits? s.toList

theorem hexValue?_hexDigit : ∀ n < 16, hexValue? (hexDigit n) = some n := by decide

theorem ofHexDigits?_hexByte (bytes : List UInt8) :
    ofHexDigits? (bytes.flatMap hexByte) = some bytes := by
  induction bytes with
  | nil => rfl
  | cons b rest ih =>
    have high := hexValue?_hexDigit (b.toNat / 16) (by have := b.toNat_lt; omega)
    have low := hexValue?_hexDigit (b.toNat % 16) (by omega)
    have whole : UInt8.ofNat (16 * (b.toNat / 16) + b.toNat % 16) = b := by
      rw [Nat.div_add_mod]; simp
    simp only [List.flatMap_cons, hexByte, List.cons_append, List.nil_append, ofHexDigits?, high,
      low, ih, Option.bind_eq_bind, Option.bind_some, whole]
    rfl

@[simp] theorem ofHex?_hex (bytes : List UInt8) : ofHex? (hex bytes) = some bytes := by
  simp [ofHex?, hex, ofHexDigits?_hexByte]

end Text
end Reconfig
