/-
Reading a settings file of tables and keyed values.

Each step gives what it read and the rest of the text. A document is a list of
statements, one to a line, that are followed in order.
-/
import Reconfig.Toml.Quoted
import Reconfig.Toml.Scalar
import Reconfig.Toml.Table

namespace Reconfig
namespace Toml

/-- Arrays and inline tables do not nest more deeply. -/
def depthLimit : Nat := 80

def skipGaps (s : List Char) : List Char := s.dropWhile isGap

def isKeyChar (c : Char) : Bool := c.isAlphanum || c == '_' || c == '-'

def key? (s : List Char) : Option (String × List Char) :=
  let bare := s.takeWhile isKeyChar
  if bare.isEmpty then quotedKey? s else some (String.ofList bare, s.drop bare.length)

/-- Keys with points between them. Each takes a character, so the length of the
text is fuel enough. -/
def dottedKey? : Nat → List Char → Option (List String × List Char)
  | 0, _ => none
  | fuel + 1, s => do
    let (name, rest) ← key? (skipGaps s)
    match skipGaps rest with
    | '.' :: rest => do
      let (names, rest) ← dottedKey? fuel rest
      pure (name :: names, rest)
    | rest => pure ([name], rest)

/-- What a comment leaves of the text. A comment ends with its line. -/
def comment? (s : List Char) : Option (List Char) :=
  match s with
  | '#' :: rest =>
    let rest := rest.dropWhile isPlain
    if rest.isEmpty ∨ (lineEnd? rest).isSome then some rest else none
  | _ => some s

/-- Passes over blanks, comments and line ends. -/
def skipBetween : Nat → List Char → Option (List Char)
  | 0, _ => none
  | fuel + 1, s => do
    let s ← comment? (skipGaps s)
    match lineEnd? s with
    | some rest => skipBetween fuel rest
    | none => pure s

def isWordChar (c : Char) : Bool :=
  c.isAlphanum || c == '_' || c == '-' || c == '+' || c == '.' || c == ':'

/-- An unquoted word. A single blank may stand between a date and a time of
day. -/
def word (s : List Char) : List Char × List Char :=
  let first := s.takeWhile isWordChar
  match s.drop first.length with
  | ' ' :: c :: rest =>
    if c.isDigit ∧ (date? first).any (·.2.isEmpty) then
      let second := (c :: rest).takeWhile isWordChar
      (first ++ ' ' :: second, (c :: rest).drop second.length)
    else (first, ' ' :: c :: rest)
  | rest => (first, rest)

mutual

/-- A value at the front of the text. The room is the number of arrays and
inline tables that may still be opened. Each call takes a character or ends. -/
def value? : Nat → Nat → List Char → Option (Json × List Char)
  | 0, _, _ => none
  | fuel + 1, room, s =>
    match s with
    | '[' :: rest =>
      match room with
      | 0 => none
      | room + 1 => do
        let (items, rest) ← items? fuel room rest
        pure (.arr items, rest)
    | '{' :: rest =>
      match room with
      | 0 => none
      | room + 1 => do
        let (entries, rest) ← entries? fuel room rest
        pure (← Members.ofEntries? entries, rest)
    | c :: _ =>
      if isQuote c then (quoted? s).map fun (text, rest) => (.str text, rest)
      else
        let (shown, rest) := word s
        (scalar? shown).map (·, rest)
    | [] => none

/-- The items up to the closing bracket. A comma may follow the last one. -/
def items? : Nat → Nat → List Char → Option (List Json × List Char)
  | 0, _, _ => none
  | fuel + 1, room, s => do
    match ← skipBetween (s.length + 1) s with
    | ']' :: rest => pure ([], rest)
    | s => do
      let (item, rest) ← value? fuel room s
      match ← skipBetween (rest.length + 1) rest with
      | ',' :: rest => do
        let (more, rest) ← items? fuel room rest
        pure (item :: more, rest)
      | ']' :: rest => pure ([item], rest)
      | _ => none

/-- The entries up to the closing brace. A comma may follow the last one. -/
def entries? : Nat → Nat → List Char → Option (List (List String × Json) × List Char)
  | 0, _, _ => none
  | fuel + 1, room, s => do
    match ← skipBetween (s.length + 1) s with
    | '}' :: rest => pure ([], rest)
    | s => do
      let (entry, rest) ← assignment? fuel room s
      match ← skipBetween (rest.length + 1) rest with
      | ',' :: rest => do
        let (more, rest) ← entries? fuel room rest
        pure (entry :: more, rest)
      | '}' :: rest => pure ([entry], rest)
      | _ => none

def assignment? : Nat → Nat → List Char → Option ((List String × Json) × List Char)
  | 0, _, _ => none
  | fuel + 1, room, s => do
    match ← dottedKey? (s.length + 1) s with
    | (key, '=' :: rest) => do
      let (value, rest) ← value? fuel room (skipGaps rest)
      pure ((key, value), rest)
    | _ => none

end

def header? (fuel : Nat) (s : List Char) : Option (Statement × List Char) :=
  match s with
  | '[' :: rest => do
    match ← dottedKey? fuel rest with
    | (path, ']' :: ']' :: rest) => pure (.element path, rest)
    | _ => none
  | _ => do
    match ← dottedKey? fuel s with
    | (path, ']' :: rest) => pure (.table path, rest)
    | _ => none

def statement? (fuel : Nat) (s : List Char) : Option (Statement × List Char) :=
  match s with
  | '[' :: rest => header? fuel rest
  | _ =>
    (assignment? fuel depthLimit s).map fun ((key, value), rest) => (.entry key value, rest)

/-- The statements up to the end of the text. Nothing but a comment follows a
statement on its line. -/
def statements? : Nat → List Char → Option (List Statement)
  | 0, _ => none
  | fuel + 1, s => do
    match ← skipBetween (s.length + 1) s with
    | [] => pure []
    | s => do
      let (statement, rest) ← statement? (4 * s.length + 4) s
      let rest ← comment? (skipGaps rest)
      match rest, lineEnd? rest with
      | [], _ => pure [statement]
      | _, some rest => do pure (statement :: (← statements? fuel rest))
      | _, none => none

def parse? (text : String) : Option Json := do
  let s := text.toList
  Draft.document? (← statements? (s.length + 1) s)

end Toml
end Reconfig
