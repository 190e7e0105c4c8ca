/-
Lengths of time and their written form.
-/
import Reconfig.Text.Blank
import Reconfig.Text.Decimal

namespace Reconfig

structure Span where
  millis : Nat
deriving DecidableEq

namespace Span

inductive Fault where
  | empty
  | malformed (text : String)
  | unknownUnit (unit : String)
deriving DecidableEq

def Fault.message : Fault → String
  | .empty => "empty duration"
  | .malformed text => "invalid duration: " ++ text
  | .unknownUnit unit => "unknown duration unit: " ++ unit

def seconds (s : Span) : Nat := s.millis / 1000

def subsecond (s : Span) : Nat := s.millis % 1000

def ofSeconds (n : UInt64) : Span := ⟨n.toNat * 1000⟩

/-- So many of the unit. The count of seconds wraps around, as products do in a
program that is built without checks for overflow. -/
def ofUnits? (n : UInt64) : List Char → Option Span
  | ['m', 's'] => some ⟨n.toNat⟩
  | ['s'] => some (ofSeconds n)
  | ['m'] => some (ofSeconds (n * 60))
  | ['h'] => some (ofSeconds (n * 3600))
  | ['d'] => some (ofSeconds (n * 86400))
  | _ => none

/-- The number and the unit, which is the last character unless it is the unit
of two letters. -/
def splitUnit (s : List Char) : List Char × List Char :=
  match s.reverse with
  | 's' :: 'm' :: rest => (rest.reverse, ['m', 's'])
  | c :: rest => (rest.reverse, [c])
  | [] => ([], [])

/-- Blanks around the text are passed over. A malformed number is reported
before an unknown unit. -/
def parse (text : String) : Except Fault Span :=
  let s := Text.trim text.toList
  if s.isEmpty then .error .empty
  else
    let (number, unit) := splitUnit s
    match Text.readNat? Text.word64 number with
    | none => .error (.malformed (String.ofList s))
    | some n =>
      match ofUnits? (.ofNat n) unit with
      | none => .error (.unknownUnit (String.ofList unit))
      | some span => .ok span

end Span
end Reconfig
