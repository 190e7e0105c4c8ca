/-
Network endpoints: an address and a port.

An address of the long kind has eight groups of sixteen bits, and the longest
run of at least two groups of zero is left out of its written form.
-/
import Reconfig.Text.Hex
import Reconfig.Text.Decimal

namespace Reconfig

inductive Endpoint where
  | short (bytes : List Nat) (port : Nat)
  | long (groups : List Nat) (scope port : Nat)
deriving DecidableEq

namespace Endpoint

/-- A number below the bound in digits of the base. There may be a greatest
count of digits, and a needless zero in front may be a fault. -/
def number? (base bound : Nat) (most : Option Nat) (zeroInFront : Bool) (s : List Char) :
    Option (Nat × List Char) :=
  let isDigit (c : Char) : Bool := (Text.hexValue? c).any (· < base)
  let shown := s.takeWhile isDigit
  let value := shown.foldl (fun n c => n * base + (Text.hexValue? c).getD 0) 0
  if shown.isEmpty ∨ most.any (· < shown.length) ∨ bound ≤ value then none
  else if !zeroInFront ∧ shown.head? = some '0' ∧ 1 < shown.length then none
  else some (value, s.drop shown.length)

def byte? (s : List Char) : Option (Nat × List Char) := number? 10 256 (some 3) false s

def expect? (c : Char) : List Char → Option (List Char)
  | d :: rest => if c = d then some rest else none
  | [] => none

/-- Four bytes with points between them. -/
def bytes? (s : List Char) : Option (List Nat × List Char) := do
  let (a, s) ← byte? s
  let (b, s) ← byte? (← expect? '.' s)
  let (c, s) ← byte? (← expect? '.' s)
  let (d, s) ← byte? (← expect? '.' s)
  pure ([a, b, c, d], s)

/-- Two groups that are written as four bytes. -/
def groupsOfBytes : List Nat → List Nat
  | [a, b, c, d] => [a * 256 + b, c * 256 + d]
  | _ => []

/-- As many groups as there are, up to the room for them, with colons between
them. Four bytes may stand for the last two groups; the flag says that they
do. -/
def groups : Nat → Bool → List Char → List Nat × Bool × List Char
  | 0, _, s => ([], false, s)
  | room + 1, first, s =>
    let entered := if first then some s else expect? ':' s
    match entered.bind bytes?, entered.bind (number? 16 65536 (some 4) true) with
    | some (bytes, rest), group =>
      if 0 < room then (groupsOfBytes bytes, true, rest)
      else
        match group with
        | some (g, rest) => ([g], false, rest)
        | none => ([], false, s)
    | none, some (g, rest) =>
      let (more, inBytes, rest) := groups room false rest
      (g :: more, inBytes, rest)
    | none, none => ([], false, s)

/-- Eight groups, or fewer around two colons that stand for at least one. -/
def address? (s : List Char) : Option (List Nat × List Char) := do
  let (head, inBytes, s) := groups 8 true s
  if head.length = 8 then pure (head, s)
  else if inBytes then none
  else
    let s ← expect? ':' (← expect? ':' s)
    let (tail, _, s) := groups (7 - head.length) true s
    pure (head ++ List.replicate (8 - head.length - tail.length) 0 ++ tail, s)

/-- The port at the end of the text. -/
def port? (s : List Char) : Option Nat := do
  let (port, rest) ← number? 10 65536 none true (← expect? ':' s)
  if rest.isEmpty then pure port else none

def short? (s : List Char) : Option Endpoint := do
  let (bytes, s) ← bytes? s
  pure (.short bytes (← port? s))

def long? (s : List Char) : Option Endpoint := do
  let (groups, s) ← address? (← expect? '[' s)
  let (scope, s) := (do number? 10 (2 ^ 32) none true (← expect? '%' s)).getD (0, s)
  pure (.long groups scope (← port? (← expect? ']' s)))

def parse? (text : String) : Option Endpoint :=
  (short? text.toList).orElse fun _ => long? text.toList

def bytesText (bytes : List Nat) : String := ".".intercalate (bytes.map toString)

def groupsText (groups : List Nat) : String :=
  ":".intercalate (groups.map fun g => String.ofList (Nat.toDigits 16 g))

/-- The start and the length of the first of the longest runs of zeros. -/
def longestZeros (groups : List Nat) : Nat × Nat :=
  let runFrom (start : Nat) : Nat := ((groups.drop start).takeWhile (· == 0)).length
  (List.range groups.length).foldl
    (fun best start => if best.2 < runFrom start then (start, runFrom start) else best) (0, 0)

/-- An address that only wraps four bytes shows them. -/
def addressText (groups : List Nat) : String :=
  match groups with
  | [0, 0, 0, 0, 0, 65535, a, b] =>
    "::ffff:" ++ bytesText [a / 256, a % 256, b / 256, b % 256]
  | _ =>
    let (start, length) := longestZeros groups
    if 1 < length then
      groupsText (groups.take start) ++ "::" ++ groupsText (groups.drop (start + length))
    else groupsText groups

def text : Endpoint → String
  | .short bytes port => s!"{bytesText bytes}:{port}"
  | .long groups scope port =>
    let scopeText := if scope = 0 then "" else s!"%{scope}"
    s!"[{addressText groups}{scopeText}]:{port}"

end Endpoint
end Reconfig
