/-
Calling again after an error that may pass, with a growing pause before each
new call.
-/
import Reconfig.Error

namespace Reconfig

structure RetryEnd (α : Type) where
  result : Except Error α
  calls : Nat
  /-- The ticks of the clock between the calls. -/
  waited : Nat

namespace RetryEnd

/-- Makes at most the given number of further calls. -/
def run {α : Type} (call : Nat → Except Error α) (calls waited delay : Nat) :
    Nat → RetryEnd α
  | 0 => ⟨.error (.internal "Max retries exceeded"), calls, waited⟩
  | left + 1 =>
    match call (calls + 1) with
    | .ok a => ⟨.ok a, calls + 1, waited⟩
    | .error e =>
      if e.isRetryable && left != 0 then run call (calls + 1) (waited + delay) (2 * delay) left
      else ⟨.error e, calls + 1, waited⟩

end RetryEnd

/-- Calls until the first success, the first error that will not pass, or the
last call. The pause doubles each time. The clock may have ticks of any length. -/
def retryTicks {α : Type} (call : Nat → Except Error α) (most delay : Nat) : RetryEnd α :=
  RetryEnd.run call 0 0 delay most

/-- The calls by a clock of milliseconds. -/
def retry {α : Type} (call : Nat → Except Error α) (most : Nat) (delay : Span) : RetryEnd α :=
  retryTicks call most delay.millis

end Reconfig
