/-
Capabilities that a node offers, under names.

Whoever registers a capability holds a registration, which owns its names. The
names become free when the registration is closed, or dropped without that.
-/
import Reconfig.Dict
import Reconfig.Json.Basic

namespace Reconfig

structure Capability where
  name : String
  description : Json
deriving Inhabited

structure Registry where
  entries : Dict Capability

structure Registration where
  capability : Capability
  /-- In the order in which the registration got them. -/
  names : List String
  /-- A closed registration has given its names back. -/
  closed : Bool

namespace Registry

def empty : Registry := ⟨∅⟩

def names (r : Registry) : List String := r.entries.keys

def lookup? (r : Registry) (name : String) : Option Capability := r.entries.get? name

/-- Puts a capability under a name that is free. -/
def offer? (r : Registry) (name : String) (c : Capability) : Option Registry :=
  if r.entries.contains name then none else some ⟨r.entries.insert name c⟩

/-- Registers a capability under its own name, if that is free. -/
def register? (r : Registry) (c : Capability) : Option (Registry × Registration) :=
  (r.offer? c.name c).map fun r => (r, ⟨c, [c.name], false⟩)

/-- Gives an open registration one more name, if that is free. -/
def alias? (r : Registry) (g : Registration) (name : String) : Option (Registry × Registration) :=
  if g.closed then none
  else (r.offer? name g.capability).map fun r => (r, { g with names := g.names ++ [name] })

/-- Takes the names out by name alone, whoever they belong to, and therefore only once. -/
def release (r : Registry) (g : Registration) : Registry × Registration :=
  if g.closed then (r, g)
  else
    let entries := g.names.foldl (fun entries name => entries.erase name) r.entries
    (⟨entries⟩, { g with closed := true })

/-- What the capabilities say of themselves, by name. -/
def describe (r : Registry) : Json :=
  .obj (r.entries.entries.map fun entry => (entry.1, entry.2.description))

def takenMessage (name : String) : String := s!"capability {name} is already registered"

end Registry
end Reconfig
