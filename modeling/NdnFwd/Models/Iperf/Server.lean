import NdnFwd.Core.Machine
import NdnFwd.Core.Table
import NdnFwd.Core.Utf8
import NdnFwd.Models.Packet.Name

/-!
# The loop of `run_server`

An Interest whose component after the flow is `session` is negotiated; every other
Interest is answered with payload. Both read the flow from the same component, but
each turns its bytes into a key in its own way. Interests are taken after decoding,
and JSON and name parsing are parameters.
-/

namespace NdnFwd.Iperf

/-- What the server reads of an Interest. -/
structure Request where
  /-- The requested name. -/
  name : Name
  /-- ApplicationParameters, when the Interest carries some. -/
  appParameters : Option Bytes
  deriving DecidableEq, Repr

/-- `SessionRequest`. -/
structure SessionRequest where
  /-- Seconds to run, for a reverse session. -/
  duration : Nat
  /-- The signing mode asked for. -/
  signing : String
  /-- The payload size asked for; 0 leaves it to the server. -/
  size : Nat
  /-- Whether the server is to fetch. -/
  reverse : Bool
  /-- What the server is to fetch. -/
  callback : String
  deriving DecidableEq, Repr

/-- `SessionRequest::default`. -/
def SessionRequest.default : SessionRequest := ⟨0, "", 0, false, ""⟩

/-- The signing modes a session may agree on. -/
inductive Signing
  | ed25519
  | hmac
  | blake3
  | digestSha256
  | none
  deriving DecidableEq, Repr

/-- How a mode is written in `SessionResponse`. -/
def Signing.text : Signing → String
  | ed25519 => "ed25519"
  | hmac => "hmac"
  | blake3 => "blake3"
  | digestSha256 => "digest_sha256"
  | none => "none"

/-- `agreed_sign`. -/
def SessionRequest.agreedSign (req : SessionRequest) : Signing :=
  if req.signing = "ed25519" then .ed25519
  else if req.signing = "hmac" then .hmac
  else if req.signing = "blake3" then .blake3
  else if req.signing = "digest_sha256" then .digestSha256
  else if req.signing = "none" then .none
  else .digestSha256

/-- `SessionResponse`. -/
structure SessionResponse where
  /-- The agreed signing mode. -/
  signing : Signing
  /-- The agreed payload size. -/
  size : Nat
  /-- As in the request. -/
  reverse : Bool
  /-- The flow id. -/
  sessionId : Bytes
  deriving DecidableEq, Repr

/-- `FlowSignMode`, with the custom signers spelled out. -/
inductive FlowSignMode
  /-- No signature. -/
  | none
  /-- SHA-256 digest. -/
  | digestSha256
  /-- BLAKE3 digest. -/
  | digestBlake3
  /-- HMAC under a key made from the flow id. -/
  | hmac (key : Bytes)
  /-- The fixed Ed25519 key of the program that signs. -/
  | ed25519
  deriving DecidableEq, Repr

/-- The agreed mode that a stored mode belongs to. -/
def FlowSignMode.signing : FlowSignMode → Signing
  | none => .none
  | digestSha256 => .digestSha256
  | digestBlake3 => .blake3
  | hmac _ => .hmac
  | ed25519 => .ed25519

/-- `make_sign_mode`. -/
def makeSignMode (signMode : Signing) (flowId : Bytes) : FlowSignMode :=
  match signMode with
  | .none => .none
  | .blake3 => .digestBlake3
  | .hmac => .hmac flowId
  | .ed25519 => .ed25519
  | .digestSha256 => .digestSha256

@[simp] theorem signing_makeSignMode (m : Signing) (flowId : Bytes) :
    (makeSignMode m flowId).signing = m := by
  cases m <;> rfl

/-- `"session"`. -/
def sessionMarker : Bytes := [0x73, 0x65, 0x73, 0x73, 0x69, 0x6F, 0x6E]

/-- `std::str::from_utf8(value).unwrap_or("")`. -/
def strOrEmpty (value : Bytes) : Bytes := if Utf8.isText value then value else []

/-- What `run_server` does not change. -/
structure ServerSetup where
  /-- `prefix`. -/
  serverPrefix : Name
  /-- `payload_size`. -/
  payloadSize : Nat
  /-- `freshness_ms`. -/
  freshnessMs : Nat
  /-- `serde_json::from_slice` to a `SessionRequest`. -/
  parseRequest : Bytes → Option SessionRequest
  /-- `str::parse` to a `Name`. -/
  parseName : String → Option Name

/-- A Data packet the server sends. -/
inductive Reply
  /-- The answer to a negotiation. -/
  | session (name : Name) (resp : SessionResponse) (freshness : Option Nat)
  /-- Benchmark payload. -/
  | payload (name : Name) (content : Bytes) (freshness : Option Nat) (sign : FlowSignMode)
  deriving DecidableEq, Repr

/-- A spawned `run_reverse_consumer`. -/
structure ReverseJob where
  /-- Prefix of the Interests it sends. -/
  callbackPrefix : Name
  /-- The flow it reports on. -/
  flowId : Bytes
  /-- How long it runs, in seconds. -/
  duration : Nat
  deriving DecidableEq, Repr

/-- What the loop does to the outside. -/
inductive ServerOutput
  /-- A Data packet was sent. -/
  | sent (reply : Reply)
  /-- A task was spawned. -/
  | spawned (job : ReverseJob)
  deriving DecidableEq, Repr

/-- What the loop takes from outside. -/
inductive Arrival
  /-- A packet came. `none` does not decode as an Interest. The answer may fail to be sent. -/
  | packet (request : Option Request) (sendOk : Bool)
  /-- The connection or the event channel was closed. -/
  | closed
  deriving DecidableEq, Repr

/-- The variables of the loop. -/
structure Server where
  /-- `flow_signers`. -/
  flowSigners : Table Bytes FlowSignMode
  /-- Whether the loop goes on. -/
  running : Bool

/-- The server before the first packet. -/
def Server.start : Server := ⟨∅, true⟩

section Loop

variable (u : ServerSetup)

/-- `(freshness_ms > 0).then(..)`, in milliseconds. -/
def ServerSetup.freshness : Option Nat := if 0 < u.freshnessMs then some u.freshnessMs else none

/-- The component after the prefix. -/
def ServerSetup.flow (name : Name) : Option Bytes :=
  (name[u.serverPrefix.length]?).map NameComponent.value

/-- Whether an Interest is a negotiation. -/
def ServerSetup.isSession (name : Name) : Bool :=
  (name[u.serverPrefix.length + 1]?).any fun c => strOrEmpty c.value = sessionMarker

/-- The request of a negotiation. -/
def ServerSetup.sessionRequest (request : Request) : SessionRequest :=
  (request.appParameters.bind u.parseRequest).getD SessionRequest.default

/-- The flow id of a negotiation. -/
def ServerSetup.sessionFlowId (name : Name) : Bytes := ((u.flow name).map Utf8.lossy).getD []

/-- `agreed_size`. -/
def ServerSetup.agreedSize (req : SessionRequest) : Nat :=
  if 0 < req.size then req.size else u.payloadSize

/-- The response to a negotiation. -/
def ServerSetup.response (request : Request) : SessionResponse :=
  let req := u.sessionRequest request
  ⟨req.agreedSign, u.agreedSize req, req.reverse, u.sessionFlowId request.name⟩

/-- The task a negotiation spawns, when it asks for one. -/
def ServerSetup.reverseJob (request : Request) : Option ReverseJob :=
  let req := u.sessionRequest request
  if req.reverse ∧ req.callback ≠ "" then
    (u.parseName req.callback).map fun p => ⟨p, u.sessionFlowId request.name, req.duration⟩
  else none

/-- `handle_session_negotiation`. The mode is stored before the response is sent. -/
def Server.negotiate (s : Server) (request : Request) (sendOk : Bool) :
    Server × List ServerOutput :=
  let resp := u.response request
  let signMode := makeSignMode resp.signing resp.sessionId
  let next := { s with flowSigners := s.flowSigners.insert resp.sessionId signMode }
  if sendOk then
    (next, .sent (.session request.name resp u.freshness) ::
      ((u.reverseJob request).map ServerOutput.spawned).toList)
  else (next, [])

/-- The mode stored under a key, or the default. -/
def Server.modeOf (s : Server) (key : Bytes) : FlowSignMode :=
  (s.flowSigners.lookup key).getD .digestSha256

/-- `flow_id_str`. -/
def ServerSetup.dataFlowId (name : Name) : Bytes := ((u.flow name).map strOrEmpty).getD []

/-- The Data for an Interest that is not a negotiation. -/
def Server.answer (s : Server) (name : Name) : Reply :=
  .payload name (List.replicate u.payloadSize 0xAA) u.freshness (s.modeOf (u.dataFlowId name))

/-- The loop. A payload that cannot be sent ends it. -/
def server : Machine Server Arrival ServerOutput where
  step s a :=
    match s.running, a with
    | true, .closed => ({ s with running := false }, [])
    | true, .packet (some request) sendOk =>
      if u.isSession request.name then s.negotiate u request sendOk
      else if sendOk then (s, [.sent (s.answer u request.name)])
      else ({ s with running := false }, [])
    | _, _ => (s, [])

end Loop

end NdnFwd.Iperf
