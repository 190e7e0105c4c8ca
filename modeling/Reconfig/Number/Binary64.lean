/-
Floating-point numbers of sixty-four bits, in exact integer arithmetic.
-/
import Reconfig.Number.Power

namespace Reconfig
namespace Number

/-- A finite number is mantissa * 2 ^ exponent. The mantissa has fifty-three
bits unless the exponent is the least one. -/
inductive Binary64 where
  | finite (negative : Bool) (mantissa : Nat) (exponent : Int)
  | infinite (negative : Bool)
  | nan
deriving DecidableEq

namespace Binary64

def leastExponent : Int := -1074

def greatestExponent : Int := 971

/-- The quotient num * 2 ^ -shift / den as a numerator and a denominator. -/
def scaled (num den : Nat) (shift : Int) : Nat × Nat :=
  if shift < 0 then (num * 2 ^ shift.natAbs, den) else (num, den * 2 ^ shift.natAbs)

/-- The nearest whole number; of two equally near, the even one. -/
def nearest (num den : Nat) : Nat :=
  let q := num / den
  let r := num % den
  if 2 * r > den ∨ 2 * r = den ∧ q % 2 = 1 then q + 1 else q

/-- The exponent at which num / den has fifty-three bits before the point, or
the least exponent. -/
def exponentOf (num den : Nat) : Int :=
  let guess : Int := (num.log2 : Int) - (den.log2 : Int) - 53
  let (n, d) := scaled num den guess
  max leastExponent (if n / d < 2 ^ 53 then guess else guess + 1)

def ofRatio (negative : Bool) (num den : Nat) : Binary64 :=
  if num = 0 then .finite negative 0 leastExponent
  else
    let exponent := exponentOf num den
    let (n, d) := scaled num den exponent
    let m := nearest n d
    let (m, exponent) := if m = 2 ^ 53 then (2 ^ 52, exponent + 1) else (m, exponent)
    if greatestExponent < exponent then .infinite negative else .finite negative m exponent

/-- The number nearest to digits * 10 ^ exponent. The bounds on the exponent
lie outside what a finite number other than zero can need. -/
def ofDecimal (negative : Bool) (digits : Nat) (exponent : Int) : Binary64 :=
  if digits = 0 then .finite negative 0 leastExponent
  else
    let magnitude : Int := (Nat.toDigits 10 digits).length + exponent
    if magnitude > 400 then .infinite negative
    else if magnitude < -400 then .finite negative 0 leastExponent
    else if exponent < 0 then ofRatio negative digits (10 ^ exponent.natAbs)
    else ofRatio negative (digits * 10 ^ exponent.natAbs) 1

def ofNat (n : Nat) : Binary64 := ofRatio false n 1

def ratio (mantissa : Nat) (exponent : Int) : Nat × Nat :=
  if exponent < 0 then (mantissa, 2 ^ exponent.natAbs) else (mantissa * 2 ^ exponent.natAbs, 1)

/-- Multiplies the size of a finite number by a power of ten that has itself
been rounded, and rounds the product. -/
def timesPowerOfTen (x : Binary64) (power : Nat) : Binary64 :=
  match x, ofNat (10 ^ power) with
  | .finite negative m e, .finite _ m' e' =>
    let (n, d) := ratio (m * m') (e + e')
    ofRatio negative n d
  | .finite negative _ _, _ => .infinite negative
  | x, _ => x

/-- Divides the size of a finite number by a power of ten that has itself been
rounded, and rounds the quotient. -/
def overPowerOfTen (x : Binary64) (power : Nat) : Binary64 :=
  match x, ofNat (10 ^ power) with
  | .finite negative m e, .finite _ m' e' =>
    let (n, d) := ratio m (e - e')
    ofRatio negative n (d * m')
  | x, _ => x

def isZero : Binary64 → Bool
  | .finite _ m _ => m == 0
  | _ => false

def isInfinite : Binary64 → Bool
  | .infinite _ => true
  | _ => false

def negate : Binary64 → Binary64
  | .finite s m e => .finite (!s) m e
  | .infinite s => .infinite (!s)
  | .nan => .nan

/-- The decimal numbers that are read back as a finite number lie between
these two, in units of a quarter of the last place. -/
def interval (mantissa : Nat) (exponent : Int) : Nat × Nat :=
  if mantissa = 2 ^ 52 ∧ leastExponent < exponent then (4 * mantissa - 1, 4 * mantissa + 2)
  else (4 * mantissa - 2, 4 * mantissa + 2)

/-- The point of a decimal grid that is nearest to the number among the two
points around it, if it is read back as the number. -/
def onGrid (mantissa : Nat) (exponent : Int) (grid : Int) : Option Nat :=
  -- a grid point p stands for p * 10 ^ grid, and the number is 4 * mantissa * 2 ^ (exponent - 2)
  let (tenUp, tenDown) := if grid < 0 then (1, 10 ^ grid.natAbs) else (10 ^ grid.natAbs, 1)
  let quarter := exponent - 2
  let (twoUp, twoDown) :=
    if quarter < 0 then (1, 2 ^ quarter.natAbs) else (2 ^ quarter.natAbs, 1)
  let unit := tenUp * twoDown
  let place := tenDown * twoUp
  let value := 4 * mantissa * place
  let (low, high) := interval mantissa exponent
  let inside (p : Nat) : Bool :=
    if mantissa % 2 = 0 then low * place ≤ p * unit && p * unit ≤ high * place
    else low * place < p * unit && p * unit < high * place
  let below := value / unit
  let above := below + 1
  let belowInside := inside below && below != 0
  let aboveInside := inside above
  let toBelow := value - below * unit
  let toAbove := above * unit - value
  if belowInside && aboveInside then
    some (if toBelow < toAbove ∨ toBelow = toAbove ∧ below % 2 = 0 then below else above)
  else if belowInside then some below
  else if aboveInside then some above
  else none

/-- The whole part of the decimal logarithm of a finite number other than zero. -/
def decimalExponent (mantissa : Nat) (exponent : Int) : Int :=
  let (n, d) := ratio mantissa exponent
  if d ≤ n then (Nat.toDigits 10 (n / d)).length - 1
  else
    let zeros := (Nat.toDigits 10 (d / n)).length
    if n * 10 ^ (zeros - 1) ≥ d then -((zeros : Int) - 1) else -(zeros : Int)

/-- Cuts zeros from the end and counts them into the exponent. -/
def withoutZeros (fuel : Nat) (digits : Nat) (exponent : Int) : Nat × Int :=
  match fuel with
  | 0 => (digits, exponent)
  | fuel + 1 =>
    if digits ≠ 0 ∧ digits % 10 = 0 then withoutZeros fuel (digits / 10) (exponent + 1)
    else (digits, exponent)

/-- The fewest decimal digits that are read back as the number, and their
exponent. Seventeen digits always suffice. -/
def shortest (mantissa : Nat) (exponent : Int) : Nat × Int :=
  let top := decimalExponent mantissa exponent
  let attempt (count : Nat) : Option (Nat × Int) :=
    let grid := top + 1 - (count : Int)
    (onGrid mantissa exponent grid).map fun p => withoutZeros 20 p grid
  ((List.range 17).findSome? fun i => attempt (i + 1)).getD (0, 0)

end Binary64
end Number
end Reconfig
