/-
How a floating-point number is laid out as text.
-/
import Reconfig.Number.Binary64

namespace Reconfig
namespace Number

/-- The choices between the ways of writing a number. -/
structure Layout where
  keepsPoint : Bool
  /-- The positions of the point at which no exponent is written, if there are
  others. -/
  positional : Option (Int × Int)

namespace Layout

/-- A document's number: the point is kept, and a number far from one has an
exponent. -/
def document : Layout := ⟨true, some (-4, 16)⟩

/-- A number in running text: no exponent, and no point in a whole number. -/
def plain : Layout := ⟨false, none⟩

def zeros (n : Int) : List Char := List.replicate n.toNat '0'

def write (layout : Layout) (digits : List Char) (exponent : Int) : List Char :=
  let point : Int := digits.length + exponent
  let positional := match layout.positional with
    | none => true
    | some (least, greatest) => decide (least ≤ point ∧ point ≤ greatest)
  if positional then
    if 0 ≤ exponent then
      digits ++ zeros exponent ++ (if layout.keepsPoint then ['.', '0'] else [])
    else if 0 < point then digits.take point.toNat ++ '.' :: digits.drop point.toNat
    else '0' :: '.' :: zeros (-point) ++ digits
  else
    let power := (toString (point - 1)).toList
    match digits with
    | first :: second :: rest => first :: '.' :: second :: rest ++ 'e' :: power
    | _ => digits ++ 'e' :: power

def render (layout : Layout) : Binary64 → List Char
  | .nan => "NaN".toList
  | .infinite negative => (if negative then ['-'] else []) ++ "inf".toList
  | .finite negative m e =>
    let sign := if negative then ['-'] else []
    if m = 0 then sign ++ (if layout.keepsPoint then "0.0".toList else ['0'])
    else
      let (digits, exponent) := Binary64.shortest m e
      sign ++ layout.write (Nat.toDigits 10 digits) exponent

end Layout
end Number
end Reconfig
