/-
Groups of writes as they are put together.

A group is put together over the store that it is for: a request gets another
state by a copy of the record that the store keeps of it. The group takes effect
as one, or the store stays as it is.
-/
import Reconfig.Participant.ChangeRequest
import Reconfig.Store.Backend

namespace Reconfig

inductive Edit where
  /-- A new request. -/
  | keep (details : ChangeDetails)
  /-- Another state for a request. -/
  | mark (uuid : Uuid) (state : ChangeState)
  | put (key : String) (value : Value)

namespace Edit

def key : Edit → String
  | .keep d => d.uuid.text
  | .mark uuid _ => uuid.text
  | .put key _ => key

def write (space : KeySpace) : Edit → Except Error Write
  | .keep d => .ok ⟨d.uuid.text, .ofRecord d.toRecord⟩
  | .mark uuid state =>
    match space.requestRecord? uuid with
    | none => .error (.notFound uuid.owner)
    | some r => .ok ⟨uuid.text, .ofRecord (r.insert RequestKey.state (.text state.text))⟩
  | .put key value => .ok ⟨key, value⟩

/-- The state that the edit gives the request, if it gives it one. -/
def mark? (uuid : Uuid) : Edit → Option ChangeState
  | .mark other state => if other = uuid then some state else none
  | _ => none

end Edit

namespace Store

def apply (s : Store) (edits : List Edit) : Except Error Store := do
  s.commit ⟨← edits.mapM (Edit.write s.space)⟩

/-- Applies one group after the other. One that is refused leaves the store as it
is. -/
def applyEach (s : Store) : List (List Edit) → Store
  | [] => s
  | edits :: rest =>
    match s.apply edits with
    | .ok t => t.applyEach rest
    | .error _ => s.applyEach rest

/-- The states that the request gets from the groups that take effect, in order. -/
def marks (uuid : Uuid) (s : Store) : List (List Edit) → List ChangeState
  | [] => []
  | edits :: rest =>
    match s.apply edits with
    | .ok t => edits.filterMap (Edit.mark? uuid) ++ t.marks uuid rest
    | .error _ => s.marks uuid rest

end Store
end Reconfig
