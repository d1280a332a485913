import NdnFwd.Core.Forwarder
import NdnFwd.Models.Iperf.Reverse

/-!
# A server, its reverse sessions and their clients around one forwarder

`run_server`, the consumers it spawns and the producers of the clients each have a face
of their own. Interests under the server prefix are routed to the face that `run_server`
registered; all other routes are arbitrary. One event lets the forwarder or one task take
its next message, or one task wake up by itself, in any order. Other programs may send
any Interest.
-/

namespace NdnFwd.Iperf

/-- A Data packet. -/
structure DataPacket where
  /-- Name. -/
  name : Name
  /-- Content. -/
  content : Bytes
  /-- FreshnessPeriod in milliseconds. -/
  freshness : Option Nat
  /-- How it was signed, unless it was left to the builder. -/
  sign : Option FlowSignMode
  deriving DecidableEq, Repr

/-- A packet. -/
abbrev Packet := Message Request DataPacket

/-- The faces of the forwarder. -/
inductive Face
  /-- The connection of `run_server`. -/
  | server
  /-- The connection of the `i`th `run_reverse_consumer`. -/
  | consumer (i : Nat)
  /-- The connection of the `i`th `run_reverse_producer`. -/
  | producer (i : Nat)
  /-- Any other connection. -/
  | other (i : Nat)
  deriving DecidableEq, Repr

/-- What does not change. -/
structure ReverseSetup (κ ρ : Type*) where
  /-- The server. -/
  server : ServerSetup
  /-- `serde_json::to_vec` of a response. -/
  encodeResponse : SessionResponse → Bytes
  /-- `result_json.to_string()`. -/
  encodeResult : ReverseResult → Bytes
  /-- The counts that the client reads from JSON. -/
  parseSummary : Bytes → Option Summary
  /-- A packet on the wire. -/
  wire : Packet → Bytes
  /-- `Data::decode`. -/
  decode : Bytes → Option Data
  /-- Congestion controller. -/
  congestion : Congestion κ
  /-- RTT filter. -/
  rtt : RttFilter ρ
  /-- `CongestionController::aimd()`. -/
  aimd : κ
  /-- Routes of names outside the server prefix. -/
  fib : Name → List Face

/-- A running `run_reverse_consumer`. -/
structure ConsumerTask (κ ρ : Type*) where
  /-- What it was spawned for. -/
  job : ReverseJob
  /-- When its test ends. -/
  deadline : Nat
  /-- The state of its loop. -/
  state : Consumer κ ρ

/-- Where `run_reverse_producer` stands. -/
inductive ProducerPhase
  /-- It answers Interests until its deadline. -/
  | serving
  /-- It waits for the result. -/
  | fetching
  /-- It has returned. -/
  | finished
  deriving DecidableEq, Repr

/-- A running `run_reverse_producer`. -/
structure Producer where
  /-- The flow id. -/
  flowId : Bytes
  /-- `sign_mode`. -/
  signMode : Signing
  /-- Where it stands. -/
  phase : ProducerPhase
  deriving DecidableEq, Repr

/-- All tasks and the forwarder. -/
structure Exchange (κ ρ : Type*) where
  /-- `run_server`. -/
  server : Server
  /-- The spawned consumers, oldest first. -/
  consumers : List (ConsumerTask κ ρ)
  /-- The producers, oldest first. -/
  producers : List Producer
  /-- The forwarder. -/
  forwarder : Forwarder Name Face Request DataPacket

/-- What happens next. -/
inductive ReverseEvent
  /-- Another program sends an Interest. -/
  | ask (i : Nat) (request : Request)
  /-- A client starts its producer. -/
  | begin (flowId : Bytes) (signMode : Signing)
  /-- The forwarder takes up a packet. -/
  | forward (k : Nat) (aggregate : Bool)
  /-- A pending Interest expires. -/
  | expire (k : Nat)
  /-- A task takes a packet. -/
  | deliver (k : Nat) (sendOk : Bool) (r : Readings) (elapsed : Nat)
  /-- A consumer is woken by something other than a packet. -/
  | timeout (i : Nat) (sendOk : Bool) (r : Readings) (elapsed : Nat)
  /-- A consumer's connection is closed. -/
  | consumerClosed (i : Nat) (sendOk : Bool) (elapsed : Nat)
  /-- `run_server` sees its connection or its event channel closed. -/
  | serverClosed
  /-- A producer stops serving, and asks for the result. -/
  | fetch (i : Nat) (sendOk : Bool)
  /-- A producer stops waiting for the result. -/
  | abandon (i : Nat)

/-- What a run shows. -/
inductive Note
  /-- `run_server` answered with benchmark payload. -/
  | payload (name : Name)
  /-- A consumer computed its result. -/
  | computed (result : ReverseResult)
  /-- A producer was handed this content for its Interest. -/
  | fetched (flowId content : Bytes)
  /-- A producer printed a summary. -/
  | printed (flowId : Bytes) (summary : Summary)
  deriving DecidableEq, Repr

/-- `"result"`. -/
def resultMarker : Bytes := [0x72, 0x65, 0x73, 0x75, 0x6C, 0x74]

/-- The name of a flow's result. -/
def ServerSetup.resultName (u : ServerSetup) (flowId : Bytes) : Name :=
  u.serverPrefix ++ [.generic flowId, .generic resultMarker]

section Tasks

variable {κ ρ : Type*} (u : ReverseSetup κ ρ)

/-- How the forwarder reads names, and where it sends Interests. -/
def ReverseSetup.routing : Routing Name Face Request DataPacket where
  asked := Request.name
  named := DataPacket.name
  route name := if u.server.serverPrefix <+: name then [.server] else u.fib name

/-- The setting of a consumer's loop. -/
def ReverseSetup.consumerSetup (job : ReverseJob) (deadline : Nat) : Setup κ ρ where
  decode := u.decode
  congestion := u.congestion
  rtt := u.rtt
  flowPrefix := job.callbackPrefix
  lifetime := 4000
  deadline := deadline

/-- The start of `run_reverse_consumer`. -/
def ReverseSetup.spawn (now : Nat) (job : ReverseJob) : ConsumerTask κ ρ :=
  let deadline := now + job.duration * 1000000
  ⟨job, deadline, Consumer.start (u.consumerSetup job deadline) u.aimd⟩

/-- The Data in which a result is published. -/
def ReverseSetup.resultData (r : ReverseResult) : DataPacket :=
  ⟨u.server.resultName r.flowId, u.encodeResult r, some 300000, none⟩

/-- A Data packet of the server as it is sent. -/
def ServerOutput.data : ServerOutput → Option DataPacket
  | .sent (.session name resp freshness) => some ⟨name, u.encodeResponse resp, freshness, none⟩
  | .sent (.payload name content freshness sign) => some ⟨name, content, freshness, some sign⟩
  | .spawned _ => none

/-- A task that the server spawned. -/
def ServerOutput.job : ServerOutput → Option ReverseJob
  | .spawned job => some job
  | .sent _ => none

/-- What the server's output shows. -/
def ServerOutput.note : ServerOutput → Option Note
  | .sent (.payload name _ _ _) => some (.payload name)
  | _ => none

/-- A packet as `Interest::decode` sees it. -/
def asRequest : Packet → Option Request
  | .request q => some q
  | .data _ => none

/-- `run_server` takes a packet. -/
def Exchange.serve (s : Exchange κ ρ) (m : Packet) (sendOk : Bool) (now : Nat) :
    Exchange κ ρ × List Note :=
  let next := (Iperf.server u.server).step s.server (.packet (asRequest m) sendOk)
  ({ s with
     server := next.1
     consumers := s.consumers ++ (next.2.filterMap ServerOutput.job).map (u.spawn now)
     forwarder := s.forwarder.send .server
       ((next.2.filterMap (ServerOutput.data u)).map Message.data) },
    next.2.filterMap ServerOutput.note)

/-- What a consumer does when it is woken. -/
structure Woken (κ ρ : Type*) where
  /-- The task afterwards. -/
  task : ConsumerTask κ ρ
  /-- The Interests it sent. -/
  requests : List Request
  /-- The result, if that ended its loop by `break`. -/
  result : Option ReverseResult

/-- A consumer is woken. -/
def ConsumerTask.wake (t : ConsumerTask κ ρ) (w : Wakeup) (elapsed : Nat) : Woken κ ρ :=
  let next := (consumer (u.consumerSetup t.job t.deadline)).step t.state w
  let ends := t.state.outcome = .running ∧ next.1.outcome = .done
  { task := { t with state := next.1 }
    requests := next.2.map fun i => ⟨i.name, none⟩
    result := if ends then some (next.1.result t.job.flowId elapsed) else none }

/-- A consumer is woken on its face, where it publishes its result. -/
def Exchange.wake (s : Exchange κ ρ) (i : Nat) (w : Wakeup) (sendOk : Bool) (elapsed : Nat) :
    Exchange κ ρ × List Note :=
  match s.consumers[i]? with
  | none => (s, [])
  | some t =>
    let woken := t.wake u w elapsed
    let published := if sendOk then (woken.result.map u.resultData).toList else []
    ({ s with
       consumers := s.consumers.set i woken.task
       forwarder := s.forwarder.send (.consumer i)
         (woken.requests.map Message.request ++ published.map Message.data) },
      (woken.result.map Note.computed).toList)

/-- The Data with which a producer answers an Interest. -/
def Producer.answer (p : Producer) (name : Name) : DataPacket :=
  ⟨name, List.replicate 8192 0xAA, none, some (makeSignMode p.signMode p.flowId)⟩

/-- What a producer that waits for its result makes of a packet. It does not look at the name. -/
def Producer.read (p : Producer) : Packet → List Note
  | .data d => .fetched p.flowId d.content ::
      ((u.parseSummary d.content).map (Note.printed p.flowId)).toList
  | .request _ => []

/-- A producer takes a packet. -/
def Exchange.produce (s : Exchange κ ρ) (i : Nat) (m : Packet) (sendOk : Bool) :
    Exchange κ ρ × List Note :=
  match s.producers[i]? with
  | none => (s, [])
  | some p =>
    match p.phase, m with
    | .serving, .request q =>
      let answers : List Packet := if sendOk then [.data (p.answer q.name)] else []
      ({ s with forwarder := s.forwarder.send (.producer i) answers }, [])
    | .fetching, m =>
      ({ s with producers := s.producers.set i { p with phase := .finished } }, p.read u m)
    | _, _ => (s, [])

/-- A producer stops serving: it asks for the result on its own face. -/
def Exchange.fetch (s : Exchange κ ρ) (i : Nat) (sendOk : Bool) : Exchange κ ρ :=
  match s.producers[i]? with
  | none => s
  | some p =>
    if p.phase = .serving then
      let asks : List Packet :=
        if sendOk then [.request ⟨u.server.resultName p.flowId, none⟩] else []
      { s with
        producers := s.producers.set i { p with phase := .fetching }
        forwarder := s.forwarder.send (.producer i) asks }
    else s

/-- A producer gives up waiting. -/
def Exchange.abandon (s : Exchange κ ρ) (i : Nat) : Exchange κ ρ :=
  match s.producers[i]? with
  | none => s
  | some p =>
    if p.phase = .fetching then
      { s with producers := s.producers.set i { p with phase := .finished } }
    else s

/-- Some task takes a packet. -/
def Exchange.deliver (s : Exchange κ ρ) (k : Nat) (sendOk : Bool) (r : Readings) (elapsed : Nat) :
    Exchange κ ρ × List Note :=
  match s.forwarder.down[k]? with
  | none => (s, [])
  | some (face, m) =>
    let rest := { s with forwarder := s.forwarder.take k }
    match face with
    | .server => rest.serve u m sendOk r.now
    | .consumer i => rest.wake u i (.packet (u.wire m) r) sendOk elapsed
    | .producer i => rest.produce u i m sendOk
    | .other _ => (rest, [])

/-- Everything together. -/
def exchange : Machine (Exchange κ ρ) ReverseEvent Note where
  step s e :=
    match e with
    | .ask i request =>
      ({ s with forwarder := s.forwarder.send (.other i) [.request request] }, [])
    | .begin flowId signMode =>
      ({ s with producers := s.producers ++ [⟨flowId, signMode, .serving⟩] }, [])
    | .forward k aggregate =>
      ({ s with forwarder := s.forwarder.forward u.routing k aggregate }, [])
    | .expire k => ({ s with forwarder := s.forwarder.expire k }, [])
    | .deliver k sendOk r elapsed => s.deliver u k sendOk r elapsed
    | .timeout i sendOk r elapsed => s.wake u i (.timeout r) sendOk elapsed
    | .consumerClosed i sendOk elapsed => s.wake u i .closed sendOk elapsed
    | .serverClosed =>
      ({ s with server := ((Iperf.server u.server).step s.server .closed).1 }, [])
    | .fetch i sendOk => (s.fetch u i sendOk, [])
    | .abandon i => (s.abandon i, [])

/-- Only the server runs. -/
def Exchange.start : Exchange κ ρ := ⟨Server.start, [], [], Forwarder.idle⟩

end Tasks

end NdnFwd.Iperf
