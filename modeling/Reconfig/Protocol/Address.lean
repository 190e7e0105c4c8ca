/-
Where a node is reached, and what state it shows to the outside.
-/
import Reconfig.Text.Decimal

namespace Reconfig

structure Address where
  text : String
deriving DecidableEq, Inhabited

namespace Address

instance : ToString Address := ⟨text⟩

inductive Fault where
  | noPort (text : String)
  | malformed (text : String)
deriving DecidableEq

def Fault.message : Fault → String
  | .noPort text => s!"expected host:port, got {text}"
  | .malformed text => s!"invalid node address: {text}"

/-- The last colon stands between the host and the port. -/
def parse (text : String) : Except Fault Address :=
  let reversed := text.toList.reverse
  if ':' ∈ reversed then
    let port := (reversed.takeWhile (· != ':')).reverse
    let host := (reversed.dropWhile (· != ':')).drop 1
    if host.isEmpty || (Text.readNat? (2 ^ 16) port).isNone then .error (.malformed text)
    else .ok ⟨text⟩
  else .error (.noPort text)

end Address

/-- The role of a node as seen from outside. -/
inductive LogicalState where
  | starting
  | active
  | passive
  | unreachable
  | unknown
deriving DecidableEq

namespace LogicalState

def text : LogicalState → String
  | .starting => "STARTING"
  | .active => "ACTIVE"
  | .passive => "PASSIVE"
  | .unreachable => "UNREACHABLE"
  | .unknown => "UNKNOWN"

instance : ToString LogicalState := ⟨text⟩

def ofText? : String → Option LogicalState
  | "STARTING" => some .starting
  | "ACTIVE" => some .active
  | "PASSIVE" => some .passive
  | "UNREACHABLE" => some .unreachable
  | "UNKNOWN" => some .unknown
  | _ => none

/-- Letters are read in either case. A text that names no state is given back
in capitals. -/
def parse (text : String) : Except String LogicalState :=
  let capitals := text.map Char.toUpper
  match ofText? capitals with
  | some state => .ok state
  | none => .error s!"unknown server state: {capitals}"

def isActive (state : LogicalState) : Bool := state == .active

/-- Whether the node can take part in a change. -/
def isOnline (state : LogicalState) : Bool := state != .unreachable && state != .unknown

@[simp] theorem ofText?_text (state : LogicalState) : ofText? state.text = some state := by
  cases state <;> rfl

end LogicalState
end Reconfig
