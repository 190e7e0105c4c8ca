/-
Values that are written without quotes: truth values, numbers and times.
-/
import Reconfig.Json.Basic
import Reconfig.Text.Hex
import Reconfig.Toml.Moment

namespace Reconfig
namespace Toml

open Number

/-- The digits without the underscores between them. -/
def ungrouped? (isDigit : Char → Bool) : List Char → Option (List Char)
  | [] => none
  | [c] => if isDigit c then some [c] else none
  | c :: '_' :: rest => if isDigit c then (ungrouped? isDigit rest).map (c :: ·) else none
  | c :: rest => if isDigit c then (ungrouped? isDigit rest).map (c :: ·) else none

/-- The value of a digit in the base, which is sixteen at most. -/
def digitIn (base : Nat) (c : Char) : Option Nat := (Text.hexValue? c).filter (· < base)

def valueIn (base : Nat) (digits : List Char) : Nat :=
  digits.foldl (fun n c => n * base + (digitIn base c).getD 0) 0

/-- Decimal digits that do not begin with a needless zero. -/
def wholeDigits? (s : List Char) : Option (List Char) :=
  match ungrouped? Char.isDigit s with
  | some ('0' :: _ :: _) => none
  | digits => digits

/-- Whether a sign in front is a minus, and what follows it. -/
def signed (s : List Char) : Bool × List Char :=
  match s with
  | '-' :: rest => (true, rest)
  | '+' :: rest => (false, rest)
  | _ => (false, s)

def based? (base : Nat) (s : List Char) : Option Int :=
  (ungrouped? (fun c => (digitIn base c).isSome) s).map fun digits => valueIn base digits

/-- A whole number. A base other than ten is named in front, without a sign. -/
def whole? (s : List Char) : Option Int :=
  match s with
  | '0' :: 'x' :: rest => based? 16 rest
  | '0' :: 'o' :: rest => based? 8 rest
  | '0' :: 'b' :: rest => based? 2 rest
  | _ =>
    let (negative, rest) := signed s
    (wholeDigits? rest).map fun digits =>
      let n : Int := valueIn 10 digits
      if negative then -n else n

/-- A whole number has sixty-four bits, one of them for the sign. -/
def integer? (s : List Char) : Option Json :=
  ((whole? s).filter fun n => decide (-(2 ^ 63) ≤ n ∧ n < 2 ^ 63)).map .int

/-- The exponent behind its letter. -/
def exponent? (s : List Char) : Option Int := do
  let (negative, rest) := signed s
  let digits ← ungrouped? Char.isDigit rest
  let n : Int := valueIn 10 digits
  pure (if negative then -n else n)

/-- A number with a point or an exponent or both. One that is too large for a
floating-point number is refused. -/
def decimal? (s : List Char) : Option Binary64 := do
  let (negative, rest) := signed s
  let isLetter (c : Char) : Bool := c == 'e' || c == 'E'
  let front := rest.takeWhile fun c => !isLetter c
  let exponent ← match rest.dropWhile fun c => !isLetter c with
    | [] => some none
    | _ :: power => (exponent? power).map some
  let whole ← wholeDigits? (front.takeWhile (· != '.'))
  let fraction ← match front.dropWhile (· != '.') with
    | [] => if exponent.isSome then some [] else none
    | _ :: digits => ungrouped? Char.isDigit digits
  let x := Binary64.ofDecimal negative (valueIn 10 (whole ++ fraction))
    (exponent.getD 0 - fraction.length)
  if x.isInfinite then none else pure x

/-- A number that has a name, or one in digits. -/
def floating? (s : List Char) : Option Json :=
  let (negative, rest) := signed s
  if rest = ['i', 'n', 'f'] then some (.float (.infinite negative))
  else if rest = ['n', 'a', 'n'] then some (.float .nan)
  else (decimal? s).map .float

def scalar? (s : List Char) : Option Json :=
  if s = ['t', 'r', 'u', 'e'] then some (.bool true)
  else if s = ['f', 'a', 'l', 's', 'e'] then some (.bool false)
  else
    (integer? s).orElse fun _ =>
      (floating? s).orElse fun _ => (moment? s).map .str

end Toml
end Reconfig
