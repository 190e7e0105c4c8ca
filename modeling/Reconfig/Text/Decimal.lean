/-
Whole numbers in decimal digits.
-/
import Reconfig.Number.Power

namespace Reconfig
namespace Text

def digits (n : Nat) : List Char := Nat.toDigits 10 n

/-- One or more digits and nothing else. -/
def ofDigits? (s : List Char) : Option Nat :=
  if s.isEmpty || !s.all Char.isDigit then none else some (Nat.ofDigitChars 10 s 0)

/-- A number below the bound, with an optional plus sign in front. -/
def readNat? (bound : Nat) (s : List Char) : Option Nat :=
  let unsigned := match s with
    | '+' :: rest => rest
    | _ => s
  (ofDigits? unsigned).filter (· < bound)

/-- A number with an optional sign in front. -/
def readSigned? : List Char → Option Int
  | '-' :: rest => (ofDigits? rest).map fun n => -(n : Int)
  | '+' :: rest => (ofDigits? rest).map Int.ofNat
  | s => (ofDigits? s).map Int.ofNat

/-- A number from the least to the greatest, with an optional sign in front. -/
def readInt? (least greatest : Int) (s : List Char) : Option Int :=
  (readSigned? s).filter fun i => decide (least ≤ i ∧ i ≤ greatest)

/-- One more than the greatest number of sixty-four bits. -/
def word64 : Nat := 2 ^ 64

theorem digits_ne_nil (n : Nat) : digits n ≠ [] := by
  simp [digits]

theorem isDigit_of_mem_digits {n : Nat} {c : Char} (h : c ∈ digits n) : c.isDigit = true :=
  Nat.isDigit_of_mem_toDigits (by decide) (by decide) h

@[simp] theorem ofDigits?_digits (n : Nat) : ofDigits? (digits n) = some n := by
  have every : (digits n).all Char.isDigit = true :=
    List.all_eq_true.2 fun _ => isDigit_of_mem_digits
  have filled : (digits n).isEmpty = false := by simp [digits_ne_nil]
  simp only [ofDigits?, every, filled, Bool.not_true, Bool.or_self, Bool.false_eq_true, if_false]
  rw [digits, Nat.ofDigitChars_toDigits (by decide) (by decide)]

theorem toString_eq_ofList_digits (n : Nat) : toString n = String.ofList (digits n) := by
  show n.repr = _
  rw [Nat.repr_eq_ofList_toDigits, digits]

end Text
end Reconfig
