/-
The change requests that a node keeps, and the chain that they form.

Each request is a record under its identity and names the request before it.
-/
import Reconfig.Digest.Chain
import Reconfig.Participant.NodeState
import Reconfig.Topology.Wire

namespace Reconfig

/-
The keys within a change request.
-/
namespace RequestKey

def state : String := "state"
def version : String := "version"
def previous : String := "prevChangeUuid"
def operation : String := "operation"
def result : String := "result"
def resultHash : String := "resultHash"
def host : String := "creationHost"
def user : String := "creationUser"
def created : String := "creationTimestamp"

end RequestKey

def Cluster.hash (c : Cluster) : String := Digest.ofJson c.toJson

namespace Record

/-- A document under the key, read as a value of some type. -/
def read? {α : Type} (r : Record) (key : String) (read : Json → Option α) (missing : StateFault) :
    Except StateFault α := do
  match ← (r.document? key).mapError .value with
  | none => .error missing
  | some document =>
    match read document with
    | some a => .ok a
    | none => .error .badDocument

def requiredText (r : Record) (key : String) (uuid : Uuid) : Except StateFault String :=
  (r.requireText key uuid.owner).mapError .value

def requiredLong (r : Record) (key : String) (uuid : Uuid) : Except StateFault Nat :=
  (r.requireLong key uuid.owner).mapError .value

def changeState (r : Record) (uuid : Uuid) : Except StateFault ChangeState := do
  (ChangeState.parse (← r.requiredText RequestKey.state uuid)).mapError .badChangeState

def previous (r : Record) : Except StateFault (Option Uuid) :=
  readOptional readUuid (r.text? RequestKey.previous)

end Record

namespace ChangeDetails

def toRecord (d : ChangeDetails) : Record :=
  let r : Record := Dict.empty
    |>.insert RequestKey.state (.text d.state.text)
    |>.insert RequestKey.version (.long d.version)
    |>.insert RequestKey.resultHash (.text d.resultHash)
    |>.insert RequestKey.host (.text d.host)
    |>.insert RequestKey.user (.text d.user)
    |>.insert RequestKey.created (.text d.created.storedText)
    |>.insert RequestKey.operation (.ofDocument d.change.toJson)
    |>.insert RequestKey.result (.ofDocument d.result.toJson)
  match d.previous with
  | some uuid => r.insert RequestKey.previous (.text uuid.text)
  | none => r

/-- The hash of the result is checked before the fields that come after it. -/
def ofRecord (uuid : Uuid) (r : Record) : Except StateFault ChangeDetails := do
  let change ← r.read? RequestKey.operation Change.ofJson? (.missingOperation uuid)
  let result ← r.read? RequestKey.result Cluster.ofJson? (.missingResult uuid)
  let resultHash ← r.requiredText RequestKey.resultHash uuid
  if result.hash ≠ resultHash then .error (.hashMismatch resultHash result.hash)
  else
    pure {
      uuid
      state := ← r.changeState uuid
      version := ← r.requiredLong RequestKey.version uuid
      previous := ← r.previous
      change
      result
      resultHash
      host := ← r.requiredText RequestKey.host uuid
      user := ← r.requiredText RequestKey.user uuid
      created := ← do readTimestamp (← r.requiredText RequestKey.created uuid) }

end ChangeDetails

namespace LineageEntry

def ofRecord (uuid : Uuid) (r : Record) : Except StateFault LineageEntry := do
  let previous ← r.previous
  let version ← r.requiredLong RequestKey.version uuid
  let state ← r.changeState uuid
  pure ⟨uuid, version, state, previous⟩

end LineageEntry

/-- The most requests that a chain may have. -/
def chainLimit : Nat := 1000000

namespace KeySpace

def requestRecord? (space : KeySpace) (uuid : Uuid) : Option Record := space.record? uuid.text

def request? (space : KeySpace) (uuid : Uuid) : Except StateFault (Option ChangeDetails) :=
  match space.requestRecord? uuid with
  | none => .ok none
  | some r => (ChangeDetails.ofRecord uuid r).map some

def lineageEntry (space : KeySpace) (uuid : Uuid) : Except StateFault LineageEntry :=
  match space.requestRecord? uuid with
  | none => .error (.brokenChain uuid)
  | some r => LineageEntry.ofRecord uuid r

/-- The chain from the given request on, if it has no more requests than the fuel
says. -/
def chain (space : KeySpace) : Nat → Option Uuid → Except StateFault (List LineageEntry)
  | _, none => .ok []
  | fuel, some uuid => do
    let entry ← space.lineageEntry uuid
    match fuel with
    | 0 => .error .endlessChain
    | fuel + 1 => do
      let rest ← space.chain fuel entry.previous
      pure (entry :: rest)

def lineage (space : KeySpace) (latest : Option Uuid) : Except StateFault (List LineageEntry) :=
  space.chain chainLimit latest

/-- The result of the newest committed request. -/
def committedTopology (space : KeySpace) (latest : Option Uuid) :
    Except StateFault (Option Cluster) := do
  let entries ← space.lineage latest
  match entries.find? (·.state == .committed) with
  | none => pure none
  | some entry => do
    let details ← space.request? entry.uuid
    pure (details.map (·.result))

/-- The result of the latest request unless it was rolled back. -/
def upcomingTopology (space : KeySpace) (latest : Option Uuid) :
    Except StateFault (Option Cluster) :=
  match latest with
  | none => .ok none
  | some uuid => do
    match ← space.request? uuid with
    | none => space.committedTopology (some uuid)
    | some details =>
      if details.state = .rolledBack then space.committedTopology (some uuid)
      else pure (some details.result)

end KeySpace
end Reconfig
