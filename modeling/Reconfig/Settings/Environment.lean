/-
Settings that come from the environment.
-/
import Reconfig.Settings.Path

namespace Reconfig
namespace Settings

open Number

/-- The names that the environment gives, with their texts. -/
abbrev Environment := Dict String

namespace Environment

/-- What the names of settings begin with, in either case. -/
def mark : List Char := "dynconf_".toList

/-- The path that a variable's name stands for, where two underscores separate
its parts. -/
def path? (name : String) : Option String :=
  let lower := name.toList.map Char.toLower
  if mark.isPrefixOf lower then
    some ((String.ofList (lower.drop mark.length)).replace "__" ".")
  else none

/-- A whole number or a fraction in digits, on either side of a point, with an
optional exponent. -/
def decimal? (s : List Char) : Option Binary64 := do
  let sign := s.takeWhile fun c => c == '-' || c == '+'
  let negative := sign = ['-']
  let body := s.drop sign.length
  let lower := body.map Char.toLower
  if 1 < sign.length then none
  else if lower = "inf".toList ∨ lower = "infinity".toList then pure (.infinite negative)
  else if lower = "nan".toList then pure .nan
  else
    let whole := body.takeWhile Char.isDigit
    let rest := body.drop whole.length
    let (fraction, rest) := match rest with
      | '.' :: rest => (rest.takeWhile Char.isDigit, rest.dropWhile Char.isDigit)
      | _ => ([], rest)
    let exponent ← match rest with
      | [] => some 0
      | c :: power => if c = 'e' ∨ c = 'E' then Text.readSigned? power else none
    if whole.isEmpty ∧ fraction.isEmpty then none
    else pure (.ofDecimal negative (Nat.ofDigitChars 10 (whole ++ fraction) 0)
      (exponent - fraction.length))

/-- A truth value or a number where the text is one, and otherwise the text. -/
def value (text : String) : Json :=
  let s := text.toList
  let lower := s.map Char.toLower
  if lower = "true".toList then .bool true
  else if lower = "false".toList then .bool false
  else
    match Text.readInt? (-(2 ^ 63)) (2 ^ 63 - 1) s with
    | some n => .int n
    | none => ((decimal? s).map Json.float).getD (.str text)

def settings (e : Environment) : List (String × Json) :=
  e.entries.filterMap fun entry => (path? entry.1).map (·, value entry.2)

def first? (e : Environment) (names : List String) : Option String := names.findSome? e.get?

end Environment
end Settings
end Reconfig
