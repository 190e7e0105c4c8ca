/-
The compact text of a document.
-/
import Reconfig.Json.Basic
import Reconfig.Number.Layout
import Reconfig.Text.Utf8

namespace Reconfig
namespace Json

/-- Quotes, backslashes and control characters are escaped, and nothing else. -/
def escapeChar (c : Char) : List Char :=
  if c = '"' then ['\\', '"']
  else if c = '\\' then ['\\', '\\']
  else if c = '\n' then ['\\', 'n']
  else if c = '\r' then ['\\', 'r']
  else if c = '\t' then ['\\', 't']
  else if c = '\x08' then ['\\', 'b']
  else if c = '\x0c' then ['\\', 'f']
  else if c.toNat < 32 then
    ['\\', 'u', '0', '0', Nat.digitChar (c.toNat / 16), Nat.digitChar (c.toNat % 16)]
  else [c]

def quote (s : String) : List Char := '"' :: s.toList.flatMap escapeChar ++ ['"']

def intChars : Int → List Char
  | .ofNat n => Nat.toDigits 10 n
  | .negSucc n => '-' :: Nat.toDigits 10 (n + 1)

mutual

def chars : Json → List Char
  | .null => ['n', 'u', 'l', 'l']
  | .bool true => ['t', 'r', 'u', 'e']
  | .bool false => ['f', 'a', 'l', 's', 'e']
  | .int i => intChars i
  | .float x => Number.Layout.document.render x
  | .str s => quote s
  | .arr [] => ['[', ']']
  | .arr (item :: rest) => '[' :: (item.chars ++ itemsTail rest)
  | .obj [] => ['{', '}']
  | .obj ((name, value) :: rest) => '{' :: (quote name ++ ':' :: (value.chars ++ membersTail rest))

def itemsTail : List Json → List Char
  | [] => [']']
  | item :: rest => ',' :: (item.chars ++ itemsTail rest)

def membersTail : List (String × Json) → List Char
  | [] => ['}']
  | (name, value) :: rest => ',' :: (quote name ++ ':' :: (value.chars ++ membersTail rest))

end

def text (j : Json) : String := String.ofList j.chars

def bytes (j : Json) : List UInt8 := Text.utf8 j.text

end Json
end Reconfig
