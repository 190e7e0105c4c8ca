/-
The protocol state that a node keeps in its store.
-/
import Reconfig.Protocol.Message
import Reconfig.Error
import Reconfig.Store.ChangeSet

namespace Reconfig

/-
The keys of the state. A change request is kept under its identity, which
has another form than every one of these keys.
-/
namespace Key

def mode : String := "mode"
def count : String := "mutativeMessageCount"
def currentVersion : String := "currentVersion"
def highestVersion : String := "highestVersion"
def latest : String := "latestChangeUuid"
def lastHost : String := "lastMutationHost"
def lastUser : String := "lastMutationUser"
def lastTimestamp : String := "lastMutationTimestamp"
def lastRequest : String := "lastRequest"

end Key

inductive StateFault where
  | notInitialized
  | badMode (text : String)
  | badUuid (text : String)
  | badTimestamp (text : String)
  /-- The state of a change request in capitals, as it could not be read. -/
  | badChangeState (message : String)
  | missingOperation (uuid : Uuid)
  | missingResult (uuid : Uuid)
  | value (fault : ValueFault)
  | badDocument
  | hashMismatch (stored computed : String)
  | brokenChain (uuid : Uuid)
  | endlessChain
deriving DecidableEq

/-- How faults and errors name a change request. -/
def Uuid.owner (uuid : Uuid) : String := s!"change {uuid}"

def StateFault.toError : StateFault → Error
  | .notInitialized => .corrupted "protocol state is not initialized"
  | .badMode text => .corrupted s!"unknown mode {text}"
  | .badUuid text => .corrupted s!"invalid uuid {text}"
  | .badTimestamp text => .corrupted s!"invalid timestamp {text}"
  | .badChangeState message => .invalidConfig message
  | .missingOperation uuid => .corrupted s!"{uuid.owner}: missing operation"
  | .missingResult uuid => .corrupted s!"{uuid.owner}: missing result"
  | .value fault => .corrupted fault.message
  | .badDocument => .serialization "stored document"
  | .hashMismatch stored computed => .checksumMismatch stored computed
  | .brokenChain uuid => .corrupted s!"broken change chain at {uuid}"
  | .endlessChain => .corrupted "change chain loops"

def readUuid (s : String) : Except StateFault Uuid :=
  match Uuid.parse? s with
  | some uuid => .ok uuid
  | none => .error (.badUuid s)

def readTimestamp (s : String) : Except StateFault Timestamp :=
  match Timestamp.parseStrict? s with
  | some t => .ok t
  | none => .error (.badTimestamp s)

def readOptional {α : Type} (read : String → Except StateFault α) :
    Option String → Except StateFault (Option α)
  | none => .ok none
  | some s => (read s).map some

structure NodeState where
  mode : Mode
  /-- The number of mutating messages that were accepted so far. -/
  count : Nat
  /-- The number of changes that were committed so far. -/
  currentVersion : Nat
  /-- The version of the newest change request. -/
  highestVersion : Nat
  latest : Option Uuid
  lastHost : Option String
  lastUser : Option String
  lastTimestamp : Option Timestamp
deriving DecidableEq

/-- The state of a node that has accepted no message. -/
def NodeState.initialWrites : ChangeSet :=
  ((((ChangeSet.empty.put Key.mode (.text Mode.accepting.text)).put Key.count (.long 0)).put
    Key.currentVersion (.long 0)).put Key.highestVersion (.long 0))

namespace KeySpace

def isInitialized (space : KeySpace) : Bool := (space.text? Key.mode).isSome

/-- A missing mode is reported first, and a mode that cannot be read last. -/
def nodeState (space : KeySpace) : Except StateFault NodeState :=
  match space.text? Key.mode with
  | none => .error .notInitialized
  | some modeText => do
    let latest ← readOptional readUuid (space.text? Key.latest)
    let lastTimestamp ← readOptional readTimestamp (space.text? Key.lastTimestamp)
    match Mode.ofText? modeText with
    | none => .error (.badMode modeText)
    | some mode =>
      pure {
        mode
        count := (space.long? Key.count).getD 0
        currentVersion := (space.long? Key.currentVersion).getD 0
        highestVersion := (space.long? Key.highestVersion).getD 0
        latest
        lastHost := space.text? Key.lastHost
        lastUser := space.text? Key.lastUser
        lastTimestamp }

end KeySpace
end Reconfig
