/-
Points in time, to the nanosecond and in universal time.

A point is kept as the fields of its written form, so writing and reading need
no count of days. An offset from universal time moves it by less than a day.
-/
import Reconfig.Text.Blank
import Reconfig.Text.Decimal

namespace Reconfig

structure Timestamp where
  year : Int
  month : Nat
  day : Nat
  hour : Nat
  minute : Nat
  /-- A minute may have a second that is counted as sixty. -/
  second : Nat
  nanos : Nat
deriving DecidableEq, Inhabited

namespace Timestamp

def isLeap (year : Int) : Bool := year % 4 == 0 && (year % 100 != 0 || year % 400 == 0)

def daysIn (year : Int) (month : Nat) : Nat :=
  match month with
  | 2 => if isLeap year then 29 else 28
  | 4 => 30
  | 6 => 30
  | 9 => 30
  | 11 => 30
  | _ => 31

def leastYear : Int := -262143

def greatestYear : Int := 262142

def isDate (year : Int) (month day : Nat) : Bool :=
  decide (leastYear ≤ year ∧ year ≤ greatestYear) && decide (1 ≤ month ∧ month ≤ 12) &&
    decide (1 ≤ day ∧ day ≤ daysIn year month)

def nextDay (year : Int) (month day : Nat) : Int × Nat × Nat :=
  if day < daysIn year month then (year, month, day + 1)
  else if month < 12 then (year, month + 1, 1)
  else (year + 1, 1, 1)

def previousDay (year : Int) (month day : Nat) : Int × Nat × Nat :=
  if 1 < day then (year, month, day - 1)
  else if 1 < month then (year, month - 1, daysIn year (month - 1))
  else (year - 1, 12, 31)

/-- The point in universal time of a local time that is ahead by the given
minutes. -/
def ofLocal? (t : Timestamp) (aheadMinutes : Int) : Option Timestamp :=
  let total : Int := (t.hour : Int) * 60 + (t.minute : Int) - aheadMinutes
  let (year, month, day) :=
    if total < 0 then previousDay t.year t.month t.day
    else if total < 1440 then (t.year, t.month, t.day)
    else nextDay t.year t.month t.day
  let rest := (total % 1440).toNat
  if isDate year month day then
    some { t with year, month, day, hour := rest / 60, minute := rest % 60 }
  else none

/-- Digits with zeros in front up to the given width. -/
def padded (width n : Nat) : List Char :=
  let ds := Text.digits n
  List.replicate (width - ds.length) '0' ++ ds

def yearChars (year : Int) : List Char :=
  if 0 ≤ year ∧ year ≤ 9999 then padded 4 year.toNat
  else (if year < 0 then '-' else '+') :: padded 4 year.natAbs

/-- No fraction, or as many thousands of digits as it needs. -/
def fractionChars (nanos : Nat) : List Char :=
  if nanos = 0 then []
  else if nanos % 1000000 = 0 then '.' :: padded 3 (nanos / 1000000)
  else if nanos % 1000 = 0 then '.' :: padded 6 (nanos / 1000)
  else '.' :: padded 9 nanos

def chars (t : Timestamp) (zone : List Char) : List Char :=
  yearChars t.year ++ '-' :: padded 2 t.month ++ '-' :: padded 2 t.day ++ 'T' :: padded 2 t.hour ++
    ':' :: padded 2 t.minute ++ ':' :: padded 2 t.second ++ fractionChars t.nanos ++ zone

/-- The form in documents. -/
def documentText (t : Timestamp) : String := String.ofList (t.chars ['Z'])

/-- The form in the store. -/
def storedText (t : Timestamp) : String := String.ofList (t.chars ['+', '0', '0', ':', '0', '0'])

/-- A number of at least one and at most the given count of digits. -/
def number? (least most : Nat) (s : List Char) : Option (Nat × List Char) :=
  let shown := (s.take most).takeWhile Char.isDigit
  if shown.length < least then none
  else some (Nat.ofDigitChars 10 shown 0, s.drop shown.length)

def literal? (c : Char) : List Char → Option (List Char)
  | d :: rest => if c = d then some rest else none
  | [] => none

/-- Digits beyond the ninth are passed over. -/
def fraction? : List Char → Option (Nat × List Char)
  | '.' :: rest => do
    let shown := (rest.take 9).takeWhile Char.isDigit
    if shown.isEmpty then none
    else
      pure (Nat.ofDigitChars 10 shown 0 * 10 ^ (9 - shown.length),
        (rest.drop shown.length).dropWhile Char.isDigit)
  | rest => some (0, rest)

def separator? : List Char → Option (List Char)
  | 'T' :: rest => some rest
  | 't' :: rest => some rest
  | ' ' :: rest => some rest
  | _ => none

/-- The minutes of a numeric offset after its sign, with what may stand between
the hours and the minutes. -/
def offsetMinutes? (colon : List Char → Option (List Char)) (s : List Char) :
    Option (Nat × List Char) := do
  let (hours, s) ← number? 2 2 s
  let s ← colon s
  let (minutes, s) ← number? 2 2 s
  if 60 ≤ minutes then none
  else pure (hours * 60 + minutes, s)

/-- Universal time, or an offset from it. -/
def offset? (colon : List Char → Option (List Char)) : List Char → Option (Int × List Char)
  | 'Z' :: rest => some (0, rest)
  | 'z' :: rest => some (0, rest)
  | '+' :: rest => (offsetMinutes? colon rest).map fun (n, s) => ((n : Int), s)
  | '-' :: rest => (offsetMinutes? colon rest).map fun (n, s) => (-(n : Int), s)
  | '\u2212' :: rest => (offsetMinutes? colon rest).map fun (n, s) => (-(n : Int), s)
  | _ => none

/-- Checks the fields of a local time and moves it to universal time. -/
def checked? (t : Timestamp) (aheadMinutes : Int) : Option Timestamp :=
  if isDate t.year t.month t.day && decide (t.hour < 24) && decide (t.minute < 60) &&
      decide (t.second ≤ 60) && decide (aheadMinutes.natAbs < 1440) then
    t.ofLocal? aheadMinutes
  else none

/-- The form with fields of fixed width. -/
def parseStrict? (text : String) : Option Timestamp := do
  let (year, s) ← number? 4 4 text.toList
  let (month, s) ← number? 2 2 (← literal? '-' s)
  let (day, s) ← number? 2 2 (← literal? '-' s)
  let (hour, s) ← number? 2 2 (← separator? s)
  let (minute, s) ← number? 2 2 (← literal? ':' s)
  let (second, s) ← number? 2 2 (← literal? ':' s)
  let (nanos, s) ← fraction? s
  let (ahead, s) ← offset? (literal? ':') s
  if s.isEmpty then checked? ⟨year, month, day, hour, minute, second, nanos⟩ ahead else none

/-- A year may have a sign, and then any number of digits. -/
def signedYear? (s : List Char) : Option (Int × List Char) :=
  match s with
  | '-' :: rest => (number? 1 rest.length rest).map fun (n, s) => (-(n : Int), s)
  | '+' :: rest => (number? 1 rest.length rest).map fun (n, s) => ((n : Int), s)
  | _ => (number? 1 4 s).map fun (n, s) => ((n : Int), s)

/-- The name of universal time, or an offset. -/
def zone? (s : List Char) : Option (Int × List Char) :=
  if (s.take 3).map Char.toLower = ['u', 't', 'c'] then some (0, s.drop 3)
  else offset? (fun s => some (s.dropWhile fun c => c == ':' || Text.isBlank c)) s

/-- The form in which fields may be shorter and blanks may stand between them. -/
def parseLoose? (text : String) : Option Timestamp := do
  let gap := Text.trimStart
  let (year, s) ← signedYear? (gap text.toList)
  let (month, s) ← number? 1 2 (gap (← literal? '-' (gap s)))
  let (day, s) ← number? 1 2 (gap (← literal? '-' (gap s)))
  let (hour, s) ← number? 1 2 (gap (← separator? s))
  let (minute, s) ← number? 1 2 (gap (← literal? ':' (gap s)))
  let (second, s) ← number? 1 2 (gap (← literal? ':' (gap s)))
  let (nanos, s) ← fraction? s
  let (ahead, s) ← zone? (gap s)
  if (gap s).isEmpty then checked? ⟨year, month, day, hour, minute, second, nanos⟩ ahead else none

end Timestamp
end Reconfig
