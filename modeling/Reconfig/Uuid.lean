/-
Identities of changes.
-/
import Reconfig.Text.Hex

namespace Reconfig

/-- An identity is thirty-two hexadecimal digits. -/
structure Uuid where
  digits : Vector (Fin 16) 32
deriving DecidableEq

namespace Uuid

/-- The number of digits in each group of the written form. -/
def groups : List Nat := [8, 4, 4, 4, 12]

/-- The groups of digits with a hyphen between each two. -/
def hyphenate : List Nat → List Char → List Char
  | [], _ => []
  | [n], cs => cs.take n
  | n :: rest, cs => cs.take n ++ '-' :: hyphenate rest (cs.drop n)

def chars (u : Uuid) : List Char :=
  hyphenate groups (u.digits.toList.map fun d => Text.hexDigit d.val)

def text (u : Uuid) : String := String.ofList u.chars

instance : ToString Uuid := ⟨text⟩

def ofDigits? (cs : List Char) : Option Uuid := do
  let values ← cs.mapM fun c => do
    let v ← Text.hexValue? c
    if h : v < 16 then some (⟨v, h⟩ : Fin 16) else none
  if h : values.toArray.size = 32 then some ⟨⟨values.toArray, h⟩⟩ else none

/-- Removes the hyphens, which must stand between the groups. -/
def unhyphenate? : List Nat → List Char → Option (List Char)
  | [], cs => if cs.isEmpty then some [] else none
  | [n], cs => if cs.length = n then some cs else none
  | n :: rest, cs => do
    match cs.drop n with
    | '-' :: tail => pure (cs.take n ++ (← unhyphenate? rest tail))
    | _ => none

def ofHyphenated? (cs : List Char) : Option Uuid := do
  ofDigits? (← unhyphenate? groups cs)

/-- The scheme in front of an identity that is written as a name. -/
def scheme : List Char := "urn:uuid:".toList

/-- Bare digits, or groups that may stand in braces or behind the scheme. Every
form is read in either case. -/
def parse? (s : String) : Option Uuid :=
  let cs := s.toList
  match cs.length with
  | 32 => ofDigits? cs
  | 36 => ofHyphenated? cs
  | 38 =>
    if cs.head? = some '{' ∧ cs.getLast? = some '}' then ofHyphenated? (cs.drop 1).dropLast
    else none
  | 45 =>
    if (cs.take scheme.length).map Char.toLower = scheme then ofHyphenated? (cs.drop scheme.length)
    else none
  | _ => none

end Uuid
end Reconfig
