/-
Tables that are filled statement by statement.

A table may be opened by its own header once. One that was only named on the
way to another may still get its header, or entries by dotted keys; one that
came from dotted keys gets no header. A finished value takes no more entries.
-/
import Reconfig.Json.Canonical

namespace Reconfig
namespace Toml

/-- How a table came to be. -/
inductive Origin where
  | header
  /-- Named on the way to another table by a header. -/
  | implied
  /-- Named by a dotted key. -/
  | dotted
deriving DecidableEq

inductive Branch where
  | closed (value : Json)
  | table (origin : Origin) (members : List (String × Branch))
  /-- An array whose last item is a table that still takes entries. -/
  | elements (done : List Json) (last : List (String × Branch))

/-- The entries of a table in the order in which they came. -/
abbrev Members := List (String × Branch)

namespace Branch

mutual

def toJson : Branch → Json
  | .closed value => value
  | .table _ members => .obj (membersJson members)
  | .elements done last => .arr (done ++ [.obj (membersJson last)])

def membersJson : List (String × Branch) → List (String × Json)
  | [] => []
  | (name, branch) :: rest => (name, branch.toJson) :: membersJson rest

end

end Branch

namespace Members

/-- Puts a branch in the place of the one with the name, or at the end. -/
def put (name : String) (branch : Branch) : Members → Members
  | [] => [(name, branch)]
  | entry :: rest =>
    if entry.1 = name then (name, branch) :: rest else entry :: put name branch rest

/-- Changes the table at the end of a path of table names. Headers and dotted
keys make the tables that are missing, and a dotted key enters no table that
has a header. -/
def within (byKey : Bool) (change : Members → Option Members) :
    List String → Members → Option Members
  | [], members => change members
  | name :: path, members =>
    match members.lookup name with
    | none => do
      let inner ← within byKey change path []
      pure (members.put name (.table (if byKey then .dotted else .implied) inner))
    | some (.closed _) => none
    | some (.elements done last) => do
      pure (members.put name (.elements done (← within byKey change path last)))
    | some (.table origin inner) =>
      if byKey ∧ origin = .header then none
      else do pure (members.put name (.table origin (← within byKey change path inner)))

def openTable (name : String) (members : Members) : Option Members :=
  match members.lookup name with
  | none => some (members.put name (.table .header []))
  | some (.table .implied inner) => some (members.put name (.table .header inner))
  | some _ => none

def openElement (name : String) (members : Members) : Option Members :=
  match members.lookup name with
  | none => some (members.put name (.elements [] []))
  | some (.elements done last) =>
    some (members.put name (.elements (done ++ [.obj (Branch.membersJson last)]) []))
  | some _ => none

/-- Gives a name that is free a value. -/
def assign (name : String) (value : Json) (members : Members) : Option Members :=
  if (members.lookup name).isSome then none else some (members.put name (.closed value))

/-- Whether a dotted key may put its last name into the table at the end of the
path. -/
def endsInDotted : List String → Members → Bool
  | [], _ => true
  | [name], members =>
    match members.lookup name with
    | none => true
    | some (.table origin _) => decide (origin = .dotted)
    | some _ => false
  | name :: path, members =>
    match members.lookup name with
    | none => true
    | some (.table _ inner) => endsInDotted path inner
    | some (.elements _ last) => endsInDotted path last
    | some (.closed _) => false

/-- Gives the value to the last name of a dotted key. -/
def assignAt (key : List String) (value : Json) (members : Members) : Option Members := do
  let name ← key.getLast?
  if endsInDotted key.dropLast members then
    within true (assign name value) key.dropLast members
  else none

def ofEntries? (entries : List (List String × Json)) : Option Json := do
  let members ← entries.foldlM (fun (m : Members) e => assignAt e.1 e.2 m) []
  pure (.obj (Branch.membersJson members))

end Members

inductive Statement where
  | table (path : List String)
  | element (path : List String)
  | entry (key : List String) (value : Json)

/-- The document so far, and the path of the table that entries go to. -/
structure Draft where
  members : Members
  here : List String

namespace Draft

def empty : Draft := ⟨[], []⟩

def follow? (d : Draft) : Statement → Option Draft
  | .table path => do
    let name ← path.getLast?
    let members ← Members.within false (Members.openTable name) path.dropLast d.members
    pure ⟨members, path⟩
  | .element path => do
    let name ← path.getLast?
    let members ← Members.within false (Members.openElement name) path.dropLast d.members
    pure ⟨members, path⟩
  | .entry key value => do
    let members ← Members.within false (Members.assignAt key value) d.here d.members
    pure { d with members }

def document? (statements : List Statement) : Option Json := do
  let d ← statements.foldlM follow? empty
  pure (Json.obj (Branch.membersJson d.members)).canonical

end Draft
end Toml
end Reconfig
