/-
Documents of the interchange format.
-/
import Reconfig.Number.Binary64

namespace Reconfig

open Number

/-- An object keeps its members in the order in which they were written, and a
name may occur more than once. -/
inductive Json where
  | null
  | bool (value : Bool)
  | int (value : Int)
  | float (value : Binary64)
  | str (value : String)
  | arr (items : List Json)
  | obj (members : List (String × Json))
deriving Inhabited

namespace Json

/-- A whole number outside these bounds is read as a floating-point number. -/
def leastInt : Int := -(2 ^ 63)

def greatestInt : Int := 2 ^ 64 - 1

/-- Documents that nest more deeply are refused by the reader. -/
def depthLimit : Nat := 127

def ofNat (n : Nat) : Json := .int n

def ofOption {α : Type} (f : α → Json) : Option α → Json
  | none => .null
  | some a => f a

mutual

/-- The number of containers around the innermost value, counting itself. -/
def depth : Json → Nat
  | .arr items => itemsDepth items + 1
  | .obj members => membersDepth members + 1
  | _ => 0

def itemsDepth : List Json → Nat
  | [] => 0
  | item :: rest => max item.depth (itemsDepth rest)

def membersDepth : List (String × Json) → Nat
  | [] => 0
  | (_, value) :: rest => max value.depth (membersDepth rest)

end

end Json
end Reconfig
