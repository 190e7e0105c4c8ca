/-
A registry together with the registrations that hold its names.

Whoever offers a capability knows its registration by an identifier. What the
registry holds is what the registrations that are not closed hold.
-/
import Reconfig.Service.Registry

namespace Reconfig

structure Holdings where
  registry : Registry
  /-- The registrations that have not been dropped. -/
  live : Dict Registration

namespace Holdings

def empty : Holdings := ⟨.empty, ∅⟩

/-- Closes the registration with the identifier, which is dropped some time later. -/
def close (h : Holdings) (id : String) : Holdings :=
  match h.live.get? id with
  | none => h
  | some g =>
    let closed := h.registry.release g
    ⟨closed.1, h.live.insert id closed.2⟩

/-- Drops the registration with the identifier, and no other. -/
def finish (h : Holdings) (id : String) : Holdings :=
  match h.live.get? id with
  | none => h
  | some g => ⟨(h.registry.release g).1, h.live.erase id⟩

/-- Registers a capability if its name is free. An earlier registration with
the identifier is dropped then. -/
def register? (h : Holdings) (id : String) (c : Capability) : Option Holdings :=
  (h.registry.register? c).map fun (registry, g) =>
    let h := finish { h with registry } id
    { h with live := h.live.insert id g }

/-- Gives a registration one more name, if it is open and the name is free. -/
def alias? (h : Holdings) (id name : String) : Option Holdings := do
  let g ← h.live.get? id
  let (registry, g) ← h.registry.alias? g name
  pure ⟨registry, h.live.insert id g⟩

def names (h : Holdings) (id : String) : List String :=
  ((h.live.get? id).map Registration.names).getD []

/-- What may happen to the registrations of a registry. -/
inductive Step where
  | register (id : String) (c : Capability)
  | alias (id name : String)
  | close (id : String)
  | finish (id : String)

/-- A step that is refused changes nothing. -/
def step (h : Holdings) : Step → Holdings
  | .register id c => (h.register? id c).getD h
  | .alias id name => (h.alias? id name).getD h
  | .close id => h.close id
  | .finish id => h.finish id

def run (steps : List Step) : Holdings := steps.foldl step empty

end Holdings
end Reconfig
