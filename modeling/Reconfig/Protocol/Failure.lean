/-
Calls to nodes that brought no answer, or a refusal.
-/
import Reconfig.Protocol.Address
import Reconfig.Protocol.Message
import Reconfig.Text.Escaped

namespace Reconfig

inductive Phase where
  | discover
  | prepare
  | commit
  | rollback
  | force
deriving DecidableEq

namespace Phase

def text : Phase → String
  | .discover => "discover"
  | .prepare => "prepare"
  | .commit => "commit"
  | .rollback => "rollback"
  | .force => "force"

instance : ToString Phase := ⟨text⟩

def ofText? : String → Option Phase
  | "discover" => some .discover
  | "prepare" => some .prepare
  | "commit" => some .commit
  | "rollback" => some .rollback
  | "force" => some .force
  | _ => none

end Phase

def Message.phase : Message → Phase
  | .prepare _ => .prepare
  | .commit _ => .commit
  | .rollback _ => .rollback
  | .force _ => .force

inductive CallError where
  | rejected (rejection : Rejection)
  | unreachable (message : String)
  | timeout
deriving DecidableEq

def CallError.text : CallError → String
  | .rejected rejection => s!"rejected: {rejection.text}"
  | .unreachable message => s!"unreachable: {message}"
  | .timeout => "timed out"

structure NodeFailure where
  address : Address
  phase : Phase
  error : CallError
deriving DecidableEq

namespace NodeFailure

def text (f : NodeFailure) : String := s!"{f.address} ({f.phase}): {f.error.text}"

def describe (failures : List NodeFailure) : String := "; ".intercalate (failures.map text)

end NodeFailure

/-- The failures of a pass over several nodes, in the order in which they
happened. -/
structure Failures where
  list : List NodeFailure
deriving DecidableEq

namespace Failures

def none : Failures := ⟨[]⟩

def record (f : Failures) (address : Address) (phase : Phase) (error : CallError) : Failures :=
  ⟨f.list ++ [⟨address, phase, error⟩]⟩

def isEmpty (f : Failures) : Bool := f.list.isEmpty

def nodes (f : Failures) : List Address :=
  f.list.foldl (fun seen failure =>
    if failure.address ∈ seen then seen else seen ++ [failure.address]) []

end Failures

/-
The detailed form shows every field of a value by name.
-/
namespace Detailed

def text (s : String) : String := Text.escaped s

def option {α : Type} (shown : α → String) : Option α → String
  | some a => s!"Some({shown a})"
  | none => "None"

def record (name : String) (fields : List (String × String)) : String :=
  name ++ " \x7b " ++ ", ".intercalate (fields.map fun f => f.1 ++ ": " ++ f.2) ++ " \x7d"

def reason : Reason → String
  | .concurrentChange inFlight =>
    record "ConcurrentChange" [("in_flight", option Uuid.text inFlight)]
  | .staleVersion expected received =>
    record "StaleVersion" [("expected", toString expected), ("received", toString received)]
  | .validationFailed => "ValidationFailed"
  | .dead expected actual =>
    record "Dead" [("expected", toString expected), ("actual", toString actual)]
  | .notPrepared => "NotPrepared"
  | .uuidMismatch prepared => record "UuidMismatch" [("prepared", option Uuid.text prepared)]
  | .unknownChange => "UnknownChange"
  | .applyFailed => "ApplyFailed"
  | .invalidTarget => "InvalidTarget"
  | .storage => "Storage"

def rejection (r : Rejection) : String :=
  record "Rejection" [("reason", reason r.reason), ("message", text r.message),
    ("last_mutation_host", option text r.lastHost), ("last_mutation_user", option text r.lastUser)]

def phase : Phase → String
  | .discover => "Discover"
  | .prepare => "Prepare"
  | .commit => "Commit"
  | .rollback => "Rollback"
  | .force => "Force"

def error : CallError → String
  | .rejected r => s!"Rejected({rejection r})"
  | .unreachable message => s!"Unreachable({text message})"
  | .timeout => "Timeout"

def failure (f : NodeFailure) : String :=
  record "NodeFailure" [("address", s!"NodeAddress({text f.address.text})"),
    ("phase", phase f.phase), ("error", error f.error)]

end Detailed
end Reconfig
