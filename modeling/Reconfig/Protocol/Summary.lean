/-
Short views of snapshots and answers.
-/
import Reconfig.Protocol.Wire

namespace Reconfig

open Json

/-- A change of which only the identity and the state are known. -/
def ChangeDetails.sketch (uuid : Uuid) (state : ChangeState) : ChangeDetails where
  uuid := uuid
  state := state
  version := 0
  previous := none
  change := .batch []
  result := ⟨"", [], ∅⟩
  resultHash := ""
  host := ""
  user := ""
  created := default

namespace Snapshot

/-- A snapshot of which only those parts are known that an analysis reads. -/
def sketch (mode : Mode) (currentVersion : Nat) (latest : Option (Uuid × ChangeState))
    (lineage : List LineageEntry) : Snapshot where
  mode := mode
  count := 0
  lastHost := none
  lastUser := none
  lastTimestamp := none
  currentVersion := currentVersion
  highestVersion := 0
  latest := latest.map fun (uuid, state) => .sketch uuid state
  lineage := lineage

def latestPair (s : Snapshot) : Json :=
  ofOption (fun d : ChangeDetails => .arr [d.uuid.toJson, d.state.toJson]) s.latest

def lastSender (s : Snapshot) : Json :=
  match s.lastHost, s.lastUser with
  | some host, some user => .arr [.str host, .str user]
  | _, _ => .null

def brief (s : Snapshot) : Json :=
  .obj [("mode", s.mode.toJson), ("count", .ofNat s.count), ("version", .ofNat s.currentVersion),
    ("highest", .ofNat s.highestVersion), ("latest", s.latestPair), ("by", s.lastSender)]

/-- What an analysis reads from the snapshot, and of a change whether it is
committed. -/
def view (s : Snapshot) (probe : Option Uuid) : Json :=
  .obj ([("latest_uuid", ofOption Uuid.toJson s.latestUuid),
    ("latest_state", ofOption ChangeState.toJson s.latestState),
    ("committed_head", ofOption Uuid.toJson s.committedHead),
    ("committed_chain", .arr (s.committedChain.map Uuid.toJson)),
    ("incomplete", .bool s.hasIncompleteChange)] ++
    match probe with
    | none => []
    | some uuid => [("has_committed", .bool (s.hasCommitted uuid))])

end Snapshot
end Reconfig
