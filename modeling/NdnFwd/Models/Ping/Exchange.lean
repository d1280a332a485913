import NdnFwd.Core.Crossing
import NdnFwd.Models.Ping.Server
import NdnFwd.Models.Ping.Summary

/-!
# Pings around a forwarder

A server, any number of clients and other programs share a forwarder. The forwarder, with the
connections to it, is a network that is a parameter. Other programs may send any Interest and any
Data, also under the prefix that the server registers.
-/

namespace NdnFwd.Ping

/-- The faces of the forwarder. -/
inductive Face
  | server
  /-- The `i`th client. -/
  | client (i : Nat)
  | other (i : Nat)
  deriving DecidableEq, Repr

/-- What travels. -/
abbrev Packet := NdnFwd.Message Interest PingData

/-- A running `run_client`. -/
structure ClientTask where
  params : PingClientParams
  state : Client
  deriving DecidableEq

/-- TLV type of an `ImplicitSha256DigestComponent`. -/
def implicitDigest : Nat := 0x01

/-- The Interest asks for Data of its very name. -/
def isPlain (q : Interest) : Bool :=
  !q.canBePrefix && q.name.getLast?.all fun c => c.typ ≠ implicitDigest

/-- Data of this name may answer the Interest. Of one that is not plain nothing is assumed. -/
def mayAnswer (n : Name) (q : Interest) : Bool := !isPlain q || q.name = n

/-- What does not change. -/
structure Setup (σ : Type*) where
  wire : Wire
  params : PingServerParams
  keyText : String
  /-- The forwarder, with the connections to it. -/
  net : Network σ Face Interest PingData

/-- The server, the clients and what lies between them. -/
structure Exchange (σ : Type*) where
  server : Server
  /-- Oldest first. -/
  clients : List ClientTask
  net : σ

/-- What happens next. -/
inductive ExchangeEvent
  /-- A client is started. -/
  | start (p : PingClientParams)
  /-- A client is woken by something other than Data. -/
  | wake (i : Nat) (r : Resume)
  /-- The forwarder goes on, and perhaps hands over a packet. -/
  | turn (k : Nat) (signOk sendOk : Bool) (rttUs : Nat) (isClosed : Bool) (elapsedMs : Nat)
  /-- The server finds its channel closed, or its connection. -/
  | stop (channel : Bool)
  /-- Another program sends an Interest. -/
  | ask (i : Nat) (q : Interest)
  /-- Another program sends Data. -/
  | offer (i : Nat) (d : PingData)

/-- What a run shows. -/
inductive Note
  | server (o : Output)
  | client (i : Nat) (m : Message)
  /-- A client takes Data. -/
  | taken (i : Nat) (d : PingData)
  /-- Another program has sent Data. -/
  | offered (d : PingData)
  deriving DecidableEq

section Exchange

variable {σ : Type*} (u : Setup σ)

/-- The packet as the server reads it. -/
def Packet.interest? : Packet → Option Name
  | .request q => some q.name
  | .data _ => none

/-- The Interests of a client, as they are sent. -/
def PingClientParams.requests (p : PingClientParams) (ms : List Message) : List Interest :=
  (interests ms).map fun name => ⟨name, false, some p.lifetimeMs⟩

/-- The server is resumed. -/
def Exchange.serve (s : Exchange σ) (a : Arrival) : Exchange σ × List Note :=
  let next := serverStep u.wire u.params u.keyText s.server a
  ({ s with
     server := next.1
     net := u.net.acceptAll s.net .server ((replies next.2).map .data) },
    next.2.map .server)

/-- A client is resumed, with Data that it has taken. -/
def Exchange.resume (s : Exchange σ) (i : Nat) (t : ClientTask) (r : Resume)
    (d : Option PingData) : Exchange σ × List Note :=
  let next := step u.wire t.params t.state r
  ({ s with
     clients := s.clients.set i { t with state := next.1 }
     net := u.net.acceptAll s.net (.client i) ((t.params.requests next.2).map .request) },
    (d.map (Note.taken i)).toList ++ next.2.map (.client i))

/-- Whether Data was fetched. -/
def Fetched.isData : Fetched → Bool
  | data _ _ => true
  | _ => false

/-- Whether the client waits for Data. -/
def Client.isFetching : Client → Bool
  | fetching _ => true
  | _ => false

/-- A client is woken by something other than Data. -/
def Exchange.wake (s : Exchange σ) (i : Nat) (r : Resume) : Exchange σ × List Note :=
  match s.clients[i]? with
  | none => (s, [])
  | some t => if r.fetched.isData then (s, []) else s.resume u i t r none

/-- A client takes Data if it waits for some, and otherwise leaves it where it is. -/
def Exchange.fetch (s : Exchange σ) (net : σ) (i : Nat) (d : PingData) (rttUs : Nat)
    (isClosed : Bool) (elapsedMs : Nat) : Exchange σ × List Note :=
  match s.clients[i]? with
  | none => (s, [])
  | some t =>
    if t.state.isFetching then
      { s with net := net }.resume u i t ⟨.data d.name rttUs, isClosed, elapsedMs⟩ (some d)
    else (s, [])

/-- The forwarder goes on. -/
def Exchange.turn (s : Exchange σ) (k : Nat) (signOk sendOk : Bool) (rttUs : Nat)
    (isClosed : Bool) (elapsedMs : Nat) : Exchange σ × List Note :=
  match u.net.hand s.net k with
  | (net, some (.server, m)) =>
    { s with net := net }.serve u (.packet (Packet.interest? m) signOk sendOk)
  | (net, some (.client i, .data d)) => s.fetch u net i d rttUs isClosed elapsedMs
  | (net, _) => ({ s with net := net }, [])

/-- The system of the server, the clients and the forwarder. -/
def exchange : Machine (Exchange σ) ExchangeEvent Note where
  step s e :=
    match e with
    | .start p => ({ s with clients := s.clients ++ [⟨p, .start⟩] }, [])
    | .wake i r => s.wake u i r
    | .turn k signOk sendOk rttUs isClosed elapsedMs =>
      s.turn u k signOk sendOk rttUs isClosed elapsedMs
    | .stop channel => s.serve u (if channel then .isClosed else .disconnected)
    | .ask i q => ({ s with net := u.net.accept s.net (.other i) (.request q) }, [])
    | .offer i d => ({ s with net := u.net.accept s.net (.other i) (.data d) }, [.offered d])

/-- Only the server runs. -/
def Exchange.idle : Exchange σ := ⟨.start, [], u.net.start⟩

end Exchange

section Notes

/-- An output of the server. -/
def Note.output? : Note → Option Output
  | server o => some o
  | _ => none

/-- A message of this client. -/
def Note.message? (i : Nat) : Note → Option Message
  | client j m => if j = i then some m else none
  | _ => none

/-- Data that this client takes. -/
def Note.taken? (i : Nat) : Note → Option PingData
  | taken j d => if j = i then some d else none
  | _ => none

/-- Data of another program. -/
def Note.offered? : Note → Option PingData
  | offered d => some d
  | _ => none

variable (notes more : List Note) (i : Nat)

/-- What the server has answered with. -/
def served : List PingData := replies (notes.filterMap Note.output?)

/-- What a client has sent and told. -/
def messagesOf : List Message := notes.filterMap (Note.message? i)

/-- The Data it has taken. -/
def takenBy : List PingData := notes.filterMap (Note.taken? i)

/-- What other programs have sent. -/
def offered : List PingData := notes.filterMap Note.offered?

@[simp] theorem served_append : served (notes ++ more) = served notes ++ served more := by
  rw [served, List.filterMap_append, replies_append]
  rfl

@[simp] theorem messagesOf_append :
    messagesOf (notes ++ more) i = messagesOf notes i ++ messagesOf more i :=
  List.filterMap_append

@[simp] theorem takenBy_append :
    takenBy (notes ++ more) i = takenBy notes i ++ takenBy more i :=
  List.filterMap_append

@[simp] theorem offered_append : offered (notes ++ more) = offered notes ++ offered more :=
  List.filterMap_append

end Notes

end NdnFwd.Ping
