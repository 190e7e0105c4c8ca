/-
Values and keys that are written in quotes.

Double quotes admit escapes and single quotes do not. Three quotes of a kind
admit line ends; one that follows the opening quotes directly is left out.
-/
import Reconfig.Text.Hex

namespace Reconfig
namespace Toml

/-- A tab or a character that is no control character. -/
def isPlain (c : Char) : Bool := c == '\t' || (32 ≤ c.toNat && c.toNat != 127)

def isGap (c : Char) : Bool := c == ' ' || c == '\t'

/-- The text after a line end. -/
def lineEnd? : List Char → Option (List Char)
  | '\n' :: rest => some rest
  | '\r' :: '\n' :: rest => some rest
  | _ => none

/-- The character with the code that the given count of digits names. -/
def codeEscape (count : Nat) (s : List Char) : Option (Char × List Char) := do
  let digits := s.take count
  let values ← digits.mapM Text.hexValue?
  let code := values.foldl (fun n d => n * 16 + d) 0
  if digits.length = count ∧ code.isValidChar then pure (Char.ofNat code, s.drop count)
  else none

/-- The character of an escape, after its backslash. -/
def escape : List Char → Option (Char × List Char)
  | '"' :: rest => some ('"', rest)
  | '\\' :: rest => some ('\\', rest)
  | 'b' :: rest => some ('\x08', rest)
  | 'e' :: rest => some ('\x1b', rest)
  | 'f' :: rest => some ('\x0c', rest)
  | 'n' :: rest => some ('\n', rest)
  | 'r' :: rest => some ('\r', rest)
  | 't' :: rest => some ('\t', rest)
  | 'x' :: rest => codeEscape 2 rest
  | 'u' :: rest => codeEscape 4 rest
  | 'U' :: rest => codeEscape 8 rest
  | _ => none

def skipLines : List Char → List Char
  | '\r' :: '\n' :: rest => skipLines rest
  | c :: rest => if isGap c || c == '\n' then skipLines rest else c :: rest
  | [] => []

/-- What follows a backslash that ends its line: the line end goes, and so do
the blanks and line ends after it. -/
def continuation? (s : List Char) : Option (List Char) :=
  (lineEnd? (s.dropWhile isGap)).map skipLines

def oneLine (quote : Char) (done : List Char) :
    Nat → List Char → Option (List Char × List Char)
  | 0, _ => none
  | _, [] => none
  | fuel + 1, c :: rest =>
    if c = quote then some (done.reverse, rest)
    else if c = '\\' ∧ quote = '"' then do
      let (c, rest) ← escape rest
      oneLine quote (c :: done) fuel rest
    else if isPlain c then oneLine quote (c :: done) fuel rest
    else none

/-- The characters up to three closing quotes. One or two more quotes belong to
the text. -/
def manyLines (quote : Char) (done : List Char) :
    Nat → List Char → Option (List Char × List Char)
  | 0, _ => none
  | fuel + 1, s =>
    match s with
    | [] => none
    | c :: rest =>
      if c = quote ∧ rest.take 2 = [quote, quote] then
        let inside := ((rest.drop 2).take 2).takeWhile (· == quote)
        some (done.reverse ++ inside, (rest.drop 2).drop inside.length)
      else if c = '\\' ∧ quote = '"' then
        match continuation? rest with
        | some rest => manyLines quote done fuel rest
        | none => do
          let (c, rest) ← escape rest
          manyLines quote (c :: done) fuel rest
      else
        match lineEnd? s with
        | some rest => manyLines quote ('\n' :: done) fuel rest
        | none => if isPlain c then manyLines quote (c :: done) fuel rest else none

def isQuote (c : Char) : Bool := c == '"' || c == '\''

/-- The text in quotes at the front. Each step takes a character, so the length
is fuel enough. -/
def quoted? (s : List Char) : Option (String × List Char) := do
  let quote :: rest := s | none
  if isQuote quote then
    let (cs, rest) ←
      if rest.take 2 = [quote, quote] then
        let body := rest.drop 2
        manyLines quote [] (s.length + 1) ((lineEnd? body).getD body)
      else oneLine quote [] (s.length + 1) rest
    pure (String.ofList cs, rest)
  else none

/-- A key in quotes stands on one line. -/
def quotedKey? (s : List Char) : Option (String × List Char) := do
  let quote :: rest := s | none
  if isQuote quote then
    let (cs, rest) ← oneLine quote [] (s.length + 1) rest
    pure (String.ofList cs, rest)
  else none

end Toml
end Reconfig
