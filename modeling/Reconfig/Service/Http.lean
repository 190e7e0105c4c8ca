/-
Requests and responses between a node and those who talk to it.
-/
import Reconfig.Json.Basic

namespace Reconfig

structure Request where
  method : String
  path : String
  contentType : Option String
  body : String

structure Response where
  status : Nat
  body : Option Json

namespace Response

def bare (status : Nat) : Response := ⟨status, none⟩

def document (status : Nat) (j : Json) : Response := ⟨status, some j⟩

end Response

namespace Request

/-- No request has a larger body. -/
def sizeLimit : Nat := 8 * 1024 * 1024

/-- No message has a larger body. -/
def messageLimit : Nat := 2 * 1024 * 1024

def size (r : Request) : Nat := r.body.utf8ByteSize

/-- The path without a query or a fragment after it. -/
def route (r : Request) : String := (r.path.takeWhile fun c => c != '?' && c != '#').toString

/-- The characters of a method, of a type and of a parameter. -/
def isToken (c : Char) : Bool := c.isAlphanum || "!#$%&'*+-.^_`|~".toList.contains c

def isPathChar (c : Char) : Bool := ' ' < c && !"<>`".toList.contains c

def isQueryChar (c : Char) : Bool := ' ' < c && !"<>\"".toList.contains c

/-- Whether a request can carry the path, which begins with a slash unless it
only names a host. -/
def isPath (path : String) : Bool :=
  let s := path.toList
  let front := s.takeWhile fun c => c != '?' && c != '#'
  let query := (s.dropWhile (· != '?')).takeWhile (· != '#')
  let named := !s.isEmpty && s.all fun c => c.isAlphanum || "*-.".toList.contains c
  named || (s.head? == some '/' && front.all isPathChar && query.all isQueryChar)

/-- Whether a request can carry the method and the path. -/
def isWellFormed (r : Request) : Bool :=
  !r.method.isEmpty && r.method.toList.all isToken && isPath r.path

end Request

namespace MediaType

open Request (isToken)

/-- The text after a parameter's value. A value is a token or stands in quotes. -/
def afterValue? (s : List Char) : Option (List Char) :=
  match s with
  | '"' :: rest =>
    match rest.dropWhile (· != '"') with
    | _ :: rest => some (rest.dropWhile (· == ' '))
    | [] => none
  | _ =>
    let rest := s.dropWhile isToken
    if rest.length < s.length ∨ rest.isEmpty then some rest else none

/-- Whether parameters follow one another as they should. Each takes a
character, so the length of the text is fuel enough. -/
def areParameters : Nat → List Char → Bool
  | 0, _ => false
  | fuel + 1, s =>
    let s := s.dropWhile (· == ' ')
    if s.isEmpty then true
    else
      match s.takeWhile isToken, s.dropWhile isToken with
      | _ :: _, '=' :: rest =>
        match afterValue? rest with
        | some [] => true
        | some (';' :: rest) => areParameters fuel rest
        | _ => false
      | _, _ => false

/-- The name of a kind before the last plus sign, and the family after it. -/
def splitFamily (kind : List Char) : List Char × List Char :=
  let family := (kind.reverse.takeWhile (· != '+')).reverse
  let base := kind.take (kind.length - family.length - 1)
  if base.isEmpty then (kind, []) else (base, family)

/-- Whether a type is that of documents, in either case. Its kind or the family
of its kind says so. -/
def isDocument (type : String) : Bool :=
  let s := type.toList.map Char.toLower
  let parameters := s.dropWhile (· != ';')
  let name := s.takeWhile (· != ';')
  let group := name.takeWhile (· != '/')
  let kind := (name.drop group.length).drop 1
  let (base, family) := splitFamily kind
  group == "application".toList && kind.all isToken &&
    (base == "json".toList || family == "json".toList) &&
    areParameters (s.length + 1) (parameters.drop 1)

end MediaType
end Reconfig
