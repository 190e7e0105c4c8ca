/-
Reading records and tagged variants from documents.

A record is an object, or an array of its fields in order. Unknown members of
an object are passed over, and a known member that occurs twice is a fault.
-/
import Reconfig.Dict
import Reconfig.Json.Basic
import Reconfig.Text.Decimal

namespace Reconfig
namespace Json

/-- The value of a member, or null where there is none. -/
def get (j : Json) (name : String) : Json :=
  match j with
  | .obj members => (members.lookup name).getD .null
  | _ => .null

def asString? : Json → Option String
  | .str s => some s
  | _ => none

def asBool? : Json → Option Bool
  | .bool b => some b
  | _ => none

def asNat? (bound : Nat) : Json → Option Nat
  | .int (.ofNat n) => if n < bound then some n else none
  | _ => none

def asWord64? (j : Json) : Option Nat := j.asNat? Text.word64

def asArray? : Json → Option (List Json)
  | .arr items => some items
  | _ => none

def asObject? : Json → Option (List (String × Json))
  | .obj members => some members
  | _ => none

def listOf? {α : Type} (read : Json → Option α) (j : Json) : Option (List α) := do
  (← j.asArray?).mapM read

/-- A dictionary may repeat a name; the last value stays. -/
def dictOf? {α : Type} (read : Json → Option α) (j : Json) : Option (Dict α) := do
  let entries ← (← j.asObject?).mapM fun m => (read m.2).map (m.1, ·)
  pure (Dict.ofList entries)

def nullable? {α : Type} (read : Json → Option α) : Json → Option (Option α)
  | .null => some none
  | j => (read j).map some

/-- The fields of a record. The fields of an array have no names of their own,
so none of them can be left out as an absent member can. -/
structure Fields where
  named : Bool
  find? : String → Option Json

def fields? (names : List String) : Json → Option Fields
  | .obj members =>
    if names.any fun name => decide (1 < members.countP (·.1 == name)) then none
    else some ⟨true, fun name => members.lookup name⟩
  | .arr items =>
    if names.length < items.length then none
    else some ⟨false, fun name => (names.zip items).lookup name⟩
  | _ => none

namespace Fields

def required? {α : Type} (f : Fields) (name : String) (read : Json → Option α) : Option α := do
  read (← f.find? name)

/-- A field that may be null, and as a member may be absent. -/
def optional? {α : Type} (f : Fields) (name : String) (read : Json → Option α) :
    Option (Option α) :=
  match f.find? name with
  | none => if f.named then some none else none
  | some j => nullable? read j

/-- A field that has a value when it is absent. -/
def defaulted? {α : Type} (f : Fields) (name : String) (read : Json → Option α) (default : α) :
    Option α :=
  match f.find? name with
  | none => some default
  | some j => read j

end Fields

/-- The value of the tag member, and the document without it. -/
def tagged? (tag : String) : Json → Option (Json × Json)
  | .obj members =>
    match members.filter (·.1 == tag) with
    | [(_, value)] => some (value, .obj (members.filter (·.1 != tag)))
    | _ => none
  | .arr (value :: items) => some (value, .arr items)
  | _ => none

/-- The value of the tag member, and that of the content member if there is one. -/
def adjacent? (tag content : String) : Json → Option (Json × Option Json)
  | .obj members =>
    match members.filter (·.1 == tag), members.filter (·.1 == content) with
    | [(_, value)], [] => some (value, none)
    | [(_, value)], [(_, inner)] => some (value, some inner)
    | _, _ => none
  | .arr [value, inner] => some (value, some inner)
  | _ => none

/-- A variant without content is its name, or an object whose only member has
that name and is null. -/
def variantName? : Json → Option String
  | .str s => some s
  | .obj [(s, .null)] => some s
  | _ => none

/-- The name of a variant in a document that was held back until its tag was
known. There an empty object may stand in place of null. -/
def heldVariantName? : Json → Option String
  | .obj [(s, .obj [])] => some s
  | j => j.variantName?

/-- A variant by name or, where the document was held back until its tag was
known, by position. -/
def variantOf? (names : List String) (byPosition : Bool) : Json → Option String
  | .str s => if s ∈ names then some s else none
  | .int (.ofNat n) => if byPosition then names[n]? else none
  | _ => none

end Json
end Reconfig
