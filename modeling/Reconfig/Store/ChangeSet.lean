/-
Groups of writes that take effect as one.
-/
import Reconfig.Store.Value

namespace Reconfig

structure Write where
  key : String
  value : Value

structure ChangeSet where
  writes : List Write

abbrev KeySpace := Dict Value

namespace KeySpace

def text? (space : KeySpace) (key : String) : Option String := do (← space.get? key).text?

def long? (space : KeySpace) (key : String) : Option Nat := do (← space.get? key).long?

def record? (space : KeySpace) (key : String) : Option Record := do (← space.get? key).record?

end KeySpace

namespace ChangeSet

def empty : ChangeSet := ⟨[]⟩

def put (c : ChangeSet) (key : String) (value : Value) : ChangeSet := ⟨c.writes ++ [⟨key, value⟩]⟩

def isEmpty (c : ChangeSet) : Bool := c.writes.isEmpty

def size (c : ChangeSet) : Nat := c.writes.length

def keys (c : ChangeSet) : List String := c.writes.map (·.key)

/-- Of writes to one key the last stays. -/
def applyTo (c : ChangeSet) (space : KeySpace) : KeySpace :=
  c.writes.foldl (fun space write => space.insert write.key write.value) space

def writeJson (w : Write) : Json := .obj [("key", .str w.key), ("value", w.value.toJson)]

def writeOfJson? (j : Json) : Option Write := do
  let f ← j.fields? ["key", "value"]
  pure ⟨← f.required? "key" Json.asString?, ← f.required? "value" Value.ofJson?⟩

def toJson (c : ChangeSet) : Json := .obj [("ops", .arr (c.writes.map writeJson))]

def ofJson? (j : Json) : Option ChangeSet := do
  let f ← j.fields? ["ops"]
  pure ⟨← f.required? "ops" (Json.listOf? writeOfJson?)⟩

@[simp] theorem applyTo_empty (space : KeySpace) : empty.applyTo space = space := rfl

theorem applyTo_put (c : ChangeSet) (key : String) (value : Value) (space : KeySpace) :
    (c.put key value).applyTo space = (c.applyTo space).insert key value := by
  simp [applyTo, put]

end ChangeSet
end Reconfig
