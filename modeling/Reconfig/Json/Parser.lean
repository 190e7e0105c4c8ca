/-
Reading a document from its text.

The reader stops at the first fault. Each step gives what it read and the rest
of the text. A number is read in two steps, its
leading digits and its power of ten, and each step is rounded.
-/
import Reconfig.Json.Basic
import Reconfig.Text.Utf8
import Reconfig.Text.Hex

namespace Reconfig
namespace Json

open Number

def isSpace (c : Char) : Bool := c == ' ' || c == '\n' || c == '\t' || c == '\r'

def skipSpace (s : List Char) : List Char := s.dropWhile isSpace

def expect : List Char → List Char → Option (List Char)
  | [], s => some s
  | c :: cs, d :: s => if c = d then expect cs s else none
  | _ :: _, [] => none

def unit16 : List Char → Option (Nat × List Char)
  | a :: b :: c :: d :: rest => do
    let a ← Text.hexValue? a
    let b ← Text.hexValue? b
    let c ← Text.hexValue? c
    let d ← Text.hexValue? d
    pure (((a * 16 + b) * 16 + c) * 16 + d, rest)
  | _ => none

/-- The character of an escape that began with a backslash and the letter u. A
unit of the upper surrogate half must be followed by one of the lower half. -/
def unicodeEscape (s : List Char) : Option (Char × List Char) := do
  let (high, rest) ← unit16 s
  if 0xd800 ≤ high ∧ high < 0xdc00 then
    match rest with
    | '\\' :: 'u' :: rest =>
      let (low, rest) ← unit16 rest
      if 0xdc00 ≤ low ∧ low < 0xe000 then
        pure (Char.ofNat (0x10000 + (high - 0xd800) * 0x400 + (low - 0xdc00)), rest)
      else none
    | _ => none
  else if 0xdc00 ≤ high ∧ high < 0xe000 then none
  else pure (Char.ofNat high, rest)

def escape : List Char → Option (Char × List Char)
  | '"' :: rest => some ('"', rest)
  | '\\' :: rest => some ('\\', rest)
  | '/' :: rest => some ('/', rest)
  | 'b' :: rest => some ('\x08', rest)
  | 'f' :: rest => some ('\x0c', rest)
  | 'n' :: rest => some ('\n', rest)
  | 'r' :: rest => some ('\r', rest)
  | 't' :: rest => some ('\t', rest)
  | 'u' :: rest => unicodeEscape rest
  | _ => none

/-- The characters up to the closing quote, after those that are done. -/
def stringChars (done : List Char) : Nat → List Char → Option (List Char × List Char)
  | 0, _ => none
  | _, [] => none
  | _, '"' :: rest => some (done.reverse, rest)
  | fuel + 1, '\\' :: rest => do
    let (c, rest) ← escape rest
    stringChars (c :: done) fuel rest
  | fuel + 1, c :: rest => if c.toNat < 32 then none else stringChars (c :: done) fuel rest

/-- The text after an opening quote. Each character takes one step, so fuel for
every character of the text is enough. -/
def stringBody (fuel : Nat) (s : List Char) : Option (String × List Char) := do
  let (cs, rest) ← stringChars [] fuel s
  pure (String.ofList cs, rest)

/-- The leading digits that fit sixty-four bits, the number of the digits after
them that had to be left out, and the rest. -/
def significantDigits : Nat → List Char → Nat × Nat × List Char
  | value, c :: rest =>
    if c.isDigit then
      let next := value * 10 + (c.toNat - '0'.toNat)
      if next < 2 ^ 64 then significantDigits next rest
      else
        let tail := rest.dropWhile Char.isDigit
        (value, rest.length - tail.length + 1, tail)
    else (value, 0, c :: rest)
  | value, [] => (value, 0, [])

/-- Scales the digits by a power of ten. A result too large to be a number is
refused. Beyond the greatest power the scaling takes several steps. -/
def scale (fuel : Nat) (x : Binary64) (exponent : Int) : Option Binary64 :=
  match fuel with
  | 0 => none
  | fuel + 1 =>
    if exponent.natAbs ≤ 308 then
      if 0 ≤ exponent then
        let y := x.timesPowerOfTen exponent.natAbs
        if y.isInfinite then none else some y
      else some (x.overPowerOfTen exponent.natAbs)
    else if x.isZero then some x
    else if 0 ≤ exponent then none
    else scale fuel (x.overPowerOfTen 308) (exponent + 308)

def fromParts (negative : Bool) (digits : Nat) (exponent : Int) : Option Json := do
  let x ← scale (exponent.natAbs + 1) (Binary64.ofNat digits) exponent
  pure (.float (if negative then x.negate else x))

/-- The number behind the letter of an exponent. An exponent too large to be
counted leaves zero, or no number at all. -/
def exponentPart (negative : Bool) (digits : Nat) (exponent : Int) (s : List Char) :
    Option (Json × List Char) :=
  let (down, s) := match s with
    | '+' :: rest => (false, rest)
    | '-' :: rest => (true, rest)
    | _ => (false, s)
  match s with
  | c :: _ =>
    if c.isDigit then
      let shown := s.takeWhile Char.isDigit
      let rest := s.dropWhile Char.isDigit
      let power := Nat.ofDigitChars 10 shown 0
      if power < 2 ^ 31 then do
        let exponent := if down then exponent - power else exponent + power
        let x ← fromParts negative digits exponent
        pure (x, rest)
      else if digits ≠ 0 ∧ !down then none
      else some (.float (.finite negative 0 Binary64.leastExponent), rest)
    else none
  | [] => none

/-- What follows the whole part of a number. -/
def afterDigits (negative : Bool) (digits : Nat) (exponent : Int) (s : List Char)
    (whole : Option Json) : Option (Json × List Char) :=
  match s with
  | 'e' :: rest => exponentPart negative digits exponent rest
  | 'E' :: rest => exponentPart negative digits exponent rest
  | _ => whole.map (·, s)

def fraction (negative : Bool) (digits : Nat) (exponent : Int) (s : List Char) :
    Option (Json × List Char) :=
  match s with
  | c :: _ =>
    if c.isDigit then
      let (digits, dropped, rest) := significantDigits digits s
      let taken := s.length - rest.length - dropped
      let exponent := exponent - taken
      afterDigits negative digits exponent rest (fromParts negative digits exponent)
    else none
  | [] => none

/-- A whole number stays exact while it lies within the bounds. Minus zero is a
floating-point number. -/
def wholeNumber (negative : Bool) (digits : Nat) : Json :=
  if negative then
    if digits = 0 ∨ 2 ^ 63 < digits then .float (Binary64.ofNat digits).negate
    else .int (-(digits : Int))
  else .int digits

/-- A number that begins with a digit. Nothing stands in front of the point but
one zero or digits that do not begin with zero. -/
def unsignedNumber (negative : Bool) (s : List Char) : Option (Json × List Char) :=
  match s with
  | '0' :: rest =>
    match rest with
    | '.' :: rest => fraction negative 0 0 rest
    | c :: _ =>
      if c.isDigit then none else afterDigits negative 0 0 rest (some (wholeNumber negative 0))
    | [] => some (wholeNumber negative 0, [])
  | c :: _ =>
    if c.isDigit then
      let (digits, dropped, rest) := significantDigits 0 s
      match rest with
      | '.' :: rest => fraction negative digits dropped rest
      | _ =>
        let whole :=
          if dropped = 0 then some (wholeNumber negative digits)
          else fromParts negative digits dropped
        afterDigits negative digits dropped rest whole
    else none
  | [] => none

def number : List Char → Option (Json × List Char)
  | '-' :: rest => unsignedNumber true rest
  | s => unsignedNumber false s

mutual

/-- A value, with blanks in front of it. The room is the number of containers
that may still be opened. Each call takes a character or ends, so the length of
the text is fuel enough. -/
def value : Nat → Nat → List Char → Option (Json × List Char)
  | 0, _, _ => none
  | fuel + 1, room, s =>
    match skipSpace s with
    | 'n' :: rest => do
      let rest ← expect ['u', 'l', 'l'] rest
      pure (.null, rest)
    | 't' :: rest => do
      let rest ← expect ['r', 'u', 'e'] rest
      pure (.bool true, rest)
    | 'f' :: rest => do
      let rest ← expect ['a', 'l', 's', 'e'] rest
      pure (.bool false, rest)
    | '"' :: rest => do
      let (text, rest) ← stringBody fuel rest
      pure (.str text, rest)
    | '[' :: rest =>
      match room with
      | 0 => none
      | room + 1 =>
        match skipSpace rest with
        | ']' :: rest => some (.arr [], rest)
        | rest => do
          let (item, rest) ← value fuel room rest
          let (items, rest) ← items fuel room rest
          pure (.arr (item :: items), rest)
    | '{' :: rest =>
      match room with
      | 0 => none
      | room + 1 =>
        match skipSpace rest with
        | '}' :: rest => some (.obj [], rest)
        | rest => do
          let (first, rest) ← member fuel room rest
          let (members, rest) ← members fuel room rest
          pure (.obj (first :: members), rest)
    | rest => number rest

/-- What follows an item of an array. -/
def items : Nat → Nat → List Char → Option (List Json × List Char)
  | 0, _, _ => none
  | fuel + 1, room, s =>
    match skipSpace s with
    | ']' :: rest => some ([], rest)
    | ',' :: rest => do
      let (item, rest) ← value fuel room rest
      let (more, rest) ← items fuel room rest
      pure (item :: more, rest)
    | _ => none

def member : Nat → Nat → List Char → Option ((String × Json) × List Char)
  | 0, _, _ => none
  | fuel + 1, room, s =>
    match skipSpace s with
    | '"' :: rest => do
      let (name, rest) ← stringBody fuel rest
      match skipSpace rest with
      | ':' :: rest =>
        let (item, rest) ← value fuel room rest
        pure ((name, item), rest)
      | _ => none
    | _ => none

/-- What follows a member of an object. -/
def members : Nat → Nat → List Char → Option (List (String × Json) × List Char)
  | 0, _, _ => none
  | fuel + 1, room, s =>
    match skipSpace s with
    | '}' :: rest => some ([], rest)
    | ',' :: rest => do
      let (first, rest) ← member fuel room rest
      let (more, rest) ← members fuel room rest
      pure (first :: more, rest)
    | _ => none

end

/-- A value at the front of the text, and the text after it. -/
def front (s : List Char) : Option (Json × List Char) := value (3 * s.length + 3) depthLimit s

/-- A value with nothing but blanks around it. -/
def parse? (text : String) : Option Json := do
  let (j, rest) ← front text.toList
  if (skipSpace rest).isEmpty then some j else none

def ofBytes? (bytes : List UInt8) : Option Json := do
  parse? (← Text.ofUtf8? bytes)

end Json
end Reconfig
