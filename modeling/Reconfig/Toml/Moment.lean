/-
Dates and times of day, and the one text that each of them is kept as.

A date may stand alone, with a time of day, or with a time of day and an offset
from universal time. A time of day may stand alone.
-/
import Reconfig.Time.Timestamp

namespace Reconfig
namespace Toml

open Timestamp (number? literal? padded)

def date? (s : List Char) : Option (List Char × List Char) := do
  let (year, s) ← number? 4 4 s
  let (month, s) ← number? 2 2 (← literal? '-' s)
  let (day, s) ← number? 2 2 (← literal? '-' s)
  if Timestamp.isDate year month day then
    pure (padded 4 year ++ '-' :: padded 2 month ++ '-' :: padded 2 day, s)
  else none

/-- The seconds and their fraction, which may be left out. -/
def seconds? (s : List Char) : Option (Nat × Nat × List Char) :=
  match s with
  | ':' :: rest => do
    let (second, rest) ← number? 2 2 rest
    let (nanos, rest) ← Timestamp.fraction? rest
    pure (second, nanos, rest)
  | _ => some (0, 0, s)

/-- A fraction of nine digits, without the zeros at its end. -/
def fractionText (nanos : Nat) : List Char :=
  if nanos = 0 then []
  else '.' :: ((padded 9 nanos).reverse.dropWhile (· == '0')).reverse

/-- The text of a time of day, and the rest. A minute may have sixty-one
seconds. -/
def timeOfDay? (s : List Char) : Option (List Char × List Char) := do
  let (hour, s) ← number? 2 2 s
  let (minute, s) ← number? 2 2 (← literal? ':' s)
  let (second, nanos, s) ← seconds? s
  if hour < 24 ∧ minute < 60 ∧ second ≤ 60 then
    pure (padded 2 hour ++ ':' :: padded 2 minute ++ ':' :: padded 2 second ++
      fractionText nanos, s)
  else none

/-- The text of an offset. One of no minutes is never negative. -/
def offset? (s : List Char) : Option (List Char) :=
  let numeric (sign : Char) (rest : List Char) : Option (List Char) := do
    let (hours, rest) ← number? 2 2 rest
    let (minutes, rest) ← number? 2 2 (← literal? ':' rest)
    if rest.isEmpty ∧ hours < 24 ∧ minutes < 60 then
      let sign := if hours = 0 ∧ minutes = 0 then '+' else sign
      pure (sign :: padded 2 hours ++ ':' :: padded 2 minutes)
    else none
  match s with
  | [] => some []
  | ['Z'] => some ['Z']
  | ['z'] => some ['Z']
  | '+' :: rest => numeric '+' rest
  | '-' :: rest => numeric '-' rest
  | _ => none

def timeAlone? (s : List Char) : Option (List Char) := do
  let (time, rest) ← timeOfDay? s
  if rest.isEmpty then pure time else none

def dated? (s : List Char) : Option (List Char) := do
  let (date, rest) ← date? s
  if rest.isEmpty then pure date
  else
    let (time, rest) ← timeOfDay? (← Timestamp.separator? rest)
    pure (date ++ 'T' :: time ++ (← offset? rest))

/-- The text that a date, a time of day or both are kept as. -/
def moment? (s : List Char) : Option String :=
  ((timeAlone? s).orElse fun _ => dated? s).map String.ofList

end Toml
end Reconfig
