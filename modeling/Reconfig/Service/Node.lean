/-
A running node and what it answers to requests.
-/
import Reconfig.Participant.Basic
import Reconfig.Protocol.Reading
import Reconfig.Service.Http
import Reconfig.Service.Registry

namespace Reconfig

/-- What a node tells of itself under a name. -/
inductive Offer where
  | protocol
  | topology
deriving DecidableEq

namespace Offer

def name : Offer → String
  | .protocol => "nomad"
  | .topology => "topology"

def errorDocument (e : Error) : Json := .obj [("error", .str e.message)]

def ofSnapshot (s : Snapshot) : Json :=
  .obj [("mode", s.mode.toJson), ("current_version", .ofNat s.currentVersion),
    ("highest_version", .ofNat s.highestVersion), ("mutative_message_count", .ofNat s.count),
    ("has_incomplete_change", .bool s.hasIncompleteChange)]

def ofTopology (limits : Limits) : Option Cluster → Json
  | none => .obj [("activated", .bool false)]
  | some c =>
    .obj [("activated", .bool true), ("cluster", .str c.name), ("stripes", .ofNat c.stripes.length),
      ("nodes", .ofNat c.nodes.length),
      ("max_offheap_mb", .ofOption (fun n => .ofNat n.toNat) limits.maxOffheap)]

def describe (p : Participant) : Offer → Json
  | .protocol =>
    match p.discover with
    | .ok s => ofSnapshot s
    | .error e => errorDocument e
  | .topology => ofTopology p.processor.limits p.runtimeTopology

def capability (p : Participant) (o : Offer) : Capability := ⟨o.name, o.describe p⟩

end Offer

structure Service where
  node : Participant
  state : LogicalState
  offers : List Offer

inductive Query where
  | discover
  | state
  | topology
  | capabilities
  | health
deriving DecidableEq

inductive Route where
  | query (query : Query)
  | message (phase : Phase)
deriving DecidableEq

def Route.ofPath? : String → Option Route
  | "/nomad/discover" => some (.query .discover)
  | "/nomad/prepare" => some (.message .prepare)
  | "/nomad/commit" => some (.message .commit)
  | "/nomad/rollback" => some (.message .rollback)
  | "/nomad/force" => some (.message .force)
  | "/state" => some (.query .state)
  | "/topology" => some (.query .topology)
  | "/capabilities" => some (.query .capabilities)
  | "/health" => some (.query .health)
  | _ => none

/-- The response to a reading request, which has no document where only the
head of the response is asked for. -/
def Request.reading (r : Request) (response : Response) : Response :=
  if r.method = "GET" then response
  else if r.method = "HEAD" then .bare response.status
  else .bare 405

namespace Service

def version : String := "0.3.0"

/-- The node offers its protocol state and its topology. -/
def new (node : Participant) (state : LogicalState) : Service :=
  ⟨node, state, [.protocol, .topology]⟩

/-- Withdraws an offer, and gives its names. -/
def withdraw? (s : Service) (index : Nat) : Option (Service × List String) :=
  (s.offers[index]?).map fun o => ({ s with offers := s.offers.eraseIdx index }, [o.name])

def registry (s : Service) : Registry :=
  s.offers.foldl
    (fun r o => ((r.register? (o.capability s.node)).map (·.1)).getD r) .empty

def ofResult {α : Type} (write : α → Json) : Except Error α → Response
  | .ok a => .document 200 (write a)
  | .error e => .document e.status (Offer.errorDocument e)

def answer (s : Service) : Query → Response
  | .discover => ofResult Snapshot.toJson s.node.discover
  | .state => .document 200 (.obj [("state", s.state.toJson)])
  | .topology => ofResult TopologyView.toJson s.node.topologyView
  | .capabilities => .document 200 s.registry.describe
  | .health =>
    .document 200
      (.obj [("status", .str "ok"), ("node", .str s.node.name), ("version", .str version)])

def message? (phase : Phase) (r : Request) : Except Response Message :=
  if r.contentType.any MediaType.isDocument then
    if Request.messageLimit < r.size then .error (.bare 413)
    else
      match Message.read phase r.body.toList with
      | .error .malformed => .error (.bare 400)
      | .error .misshapen => .error (.bare 422)
      | .ok m => .ok m
  else .error (.bare 415)

def deliver (s : Service) (phase : Phase) (r : Request) (now : Timestamp) : Service × Response :=
  if r.method ≠ "POST" then (s, .bare 405)
  else
    match message? phase r with
    | .error response => (s, response)
    | .ok m =>
      let (node, answer) := s.node.handle m now
      ({ s with node }, .document 200 (AnswerBody.ofAnswer answer).toJson)

def respond (s : Service) (r : Request) (now : Timestamp) : Service × Response :=
  if Request.sizeLimit < r.size then (s, .bare 413)
  else
    match Route.ofPath? r.route with
    | none => (s, .bare 404)
    | some (.query q) => (s, r.reading (s.answer q))
    | some (.message phase) => s.deliver phase r now

end Service

/-- What a node that is still starting answers. -/
def startingResponse (name : String) (r : Request) : Response :=
  match Route.ofPath? r.route with
  | some (.query .state) =>
    r.reading (.document 200 (.obj [("state", LogicalState.starting.toJson)]))
  | some (.query .health) =>
    r.reading (.document 503 (.obj [("status", .str "starting"), ("node", .str name)]))
  | _ => .bare 404

end Reconfig
