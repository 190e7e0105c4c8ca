/-
The topology in effect on a node, and those who are told when it changes.
-/
import Reconfig.Error
import Reconfig.Topology.Validation

namespace Reconfig

/-- A listener is asked before a topology takes effect and may refuse it. -/
structure Listener where
  /-- The answer to the next question, given the number of the questions before it. -/
  answer : Nat → Change → Cluster → Except Error Unit
  asked : Nat
  /-- What the listener has agreed to, the newest last. -/
  heard : List (Change × Cluster)

namespace Listener

def ask (l : Listener) (change : Change) (result : Cluster) : Listener × Except Error Unit :=
  match l.answer l.asked change result with
  | .ok () => ({ l with asked := l.asked + 1, heard := l.heard ++ [(change, result)] }, .ok ())
  | .error e => ({ l with asked := l.asked + 1 }, .error e)

/-- Asks in order, and stops at the first refusal. -/
def askAll (change : Change) (result : Cluster) :
    List Listener → List Listener × Except Error Unit
  | [] => ([], .ok ())
  | l :: rest =>
    match l.ask change result with
    | (l, .ok ()) =>
      let (rest, outcome) := askAll change result rest
      (l :: rest, outcome)
    | (l, .error e) => (l :: rest, .error e)

end Listener

structure Processor where
  limits : Limits
  /-- The topology in effect. -/
  runtime : Option Cluster
  listeners : List Listener

namespace Processor

def new (limits : Limits) (listeners : List Listener) : Processor := ⟨limits, none, listeners⟩

def validate (p : Processor) (current : Option Cluster) (change : Change) :
    Except Error Cluster :=
  (change.validate current p.limits).mapError Error.ofObjection

/-- Takes up the committed topology when the node starts, without asking anyone. -/
def load (p : Processor) (committed : Option Cluster) : Processor := { p with runtime := committed }

/-- Makes the result of a change the topology in effect. Nobody is asked about a
topology that is in effect already. -/
def apply (p : Processor) (change : Change) (result : Cluster) : Processor × Except Error Unit :=
  if p.runtime = some result then (p, .ok ())
  else
    match Listener.askAll change result p.listeners with
    | (listeners, .ok ()) => ({ p with listeners, runtime := some result }, .ok ())
    | (listeners, .error e) => ({ p with listeners }, .error e)

end Processor
end Reconfig
