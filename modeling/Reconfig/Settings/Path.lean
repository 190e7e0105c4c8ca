/-
Places in a tree of settings, and putting values there.
-/
import Reconfig.Json.Fields

namespace Reconfig
namespace Settings

/-- A step from a setting to one inside it. A negative index counts from the
end. -/
inductive Step where
  | key (name : String)
  | index (i : Int)
deriving DecidableEq

structure Path where
  root : String
  steps : List Step
deriving DecidableEq

namespace Path

def isNameChar (c : Char) : Bool := c.isAlphanum || c == '_' || c == '-'

def name? (s : List Char) : Option (String × List Char) :=
  let shown := s.takeWhile isNameChar
  if shown.isEmpty then none else some (String.ofList shown, s.drop shown.length)

def isGap (c : Char) : Bool := c == ' ' || c == '\t'

/-- The index between brackets, with blanks around it. -/
def index? (s : List Char) : Option (Int × List Char) := do
  let body := (s.takeWhile (· != ']')).dropWhile isGap
  let body := (body.reverse.dropWhile isGap).reverse
  let ']' :: rest := s.dropWhile (· != ']') | none
  if body.head? = some '+' then none
  else pure (← Text.readInt? (-(2 ^ 63)) (2 ^ 63 - 1) body, rest)

/-- The steps after the root. Each takes a character, so the length of the text
is fuel enough. -/
def steps? : Nat → List Char → Option (List Step)
  | _, [] => some []
  | fuel + 1, '.' :: s => do
    let (name, rest) ← name? s
    pure (.key name :: (← steps? fuel rest))
  | fuel + 1, '[' :: s => do
    let (i, rest) ← index? s
    pure (.index i :: (← steps? fuel rest))
  | _, _ => none

/-- A text that describes no path is a name as it stands. -/
def ofText (text : String) : Path :=
  let s := text.toList
  let read := do
    let (root, rest) ← name? s
    pure (⟨root, ← steps? (rest.length + 1) rest⟩ : Path)
  read.getD ⟨text, []⟩

end Path

/-- Changes the member with the name, which starts as null. What is not a table
gives way to one. -/
def changeMember (name : String) (change : Json → Json) (j : Json) : Json :=
  let members := (j.asObject?).getD []
  .obj ((members.filter (·.1 != name)) ++ [(name, change (j.get name))])

/-- Changes the item at the index. What is not an array gives way to one, and
an array that is too short is filled up with nulls. -/
def changeItem (i : Int) (change : Json → Json) (j : Json) : Json :=
  let items := (j.asArray?).getD []
  let least : Int := -(items.length : Int)
  if i < least then
    .arr (change .null :: (List.replicate ((least - i).toNat - 1) Json.null ++ items))
  else
    let place := (if i < 0 then items.length + i else i).toNat
    let items := items ++ List.replicate (place + 1 - items.length) Json.null
    .arr (items.mapIdx fun n item => if n = place then change item else item)

def changeAt (change : Json → Json) : List Step → Json → Json
  | [], j => change j
  | .key name :: steps, j => changeMember name (changeAt change steps) j
  | .index i :: steps, j => changeItem i (changeAt change steps) j

mutual

/-- Lays a value over another one. A table goes over another one member by
member, and any other value takes its place. -/
def overlay : Json → Json → Json
  | .obj members, below =>
    overlayMembers members (match below with
      | .null => .obj []
      | _ => below)
  | above, _ => above

def overlayMembers : List (String × Json) → Json → Json
  | [], below => below
  | (name, value) :: rest, below =>
    overlayMembers rest (changeMember name (overlay value) below)

end

/-- Lays named values over the settings, each at the place that its name
describes. -/
def layer (entries : List (String × Json)) (settings : Json) : Json :=
  entries.foldl
    (fun settings entry =>
      let path := Path.ofText entry.1
      changeMember path.root (changeAt (overlay entry.2) path.steps) settings)
    settings

end Settings
end Reconfig
