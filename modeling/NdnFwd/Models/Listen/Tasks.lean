import NdnFwd.Core.Machine

/-!
# The tasks that add faces while the forwarder runs

Every listener and every `faces/create` request draws face identifiers from the engine. The
WebTransport and QUIC listeners draw before they accept, the WebRTC and WebSocket listeners once a
peer is there, a dialled face before it connects. Between two of its awaits a task runs alone; the
tasks take turns in any order.

The engine and the tokens are not part of the forwarder's sources. `alloc_id` is an input of every
step here: whatever it returns. `add_face` puts a face into a table that has one entry for an
identifier. Cancelling a `CancellationToken` cancels its children, and never its parent. The BLE
listener and the shared-memory provisioner are no tasks of their own here. What they do to the
table is done elsewhere in the forwarder, like the faces of the configuration.
-/

namespace NdnFwd.Listen

/-- Who runs the task. -/
inductive Role
  /-- A session loop of `run_webrtc_listener`. -/
  | webRtc
  /-- `run_wt_listener`. -/
  | webTransport
  /-- `run_quic_listener`. -/
  | quic
  /-- `run_ws_listener`. -/
  | webSocket
  /-- `provision` of the QUIC, WebTransport or BLE provisioner. -/
  | dial
  deriving DecidableEq, Repr

/-- Where a task stands. -/
inductive Phase
  /-- Resolving its certificate or binding its socket. -/
  | binding
  /-- At the head of its accept loop. -/
  | loopHead
  /-- In `select!`, awaiting a peer. -/
  | accepting
  /-- In `select!`, awaiting a peer with the identifier allocated for it. -/
  | allocated (face : Nat)
  /-- Awaiting the WebSocket handshake of an accepted connection. -/
  | handshaking
  /-- Sleeping before the next `accept_one`. -/
  | pausing
  /-- Awaiting the connection of a dialled face. -/
  | dialing (face : Nat)
  /-- Returned. -/
  | returned
  deriving DecidableEq, Repr

/-- The identifier that a task holds for a face it has yet to add. -/
def Phase.held : Phase → Option Nat
  | .allocated face => some face
  | .dialing face => some face
  | _ => none

/-- A task. -/
structure Task where
  /-- Who runs it. -/
  role : Role
  /-- Where it stands. -/
  phase : Phase
  deriving DecidableEq, Repr

/-- The identifier that it holds. -/
def Task.held (t : Task) : Option Nat := t.phase.held

/-- The cancellation token that a face is added under. -/
inductive Token
  /-- The token of the forwarder itself. -/
  | forwarder
  /-- A child of it, and whether the child was cancelled on its own. -/
  | child (cancelled : Bool)
  /-- A token of its own. -/
  | own (cancelled : Bool)
  deriving DecidableEq, Repr

/-- A face in the engine's table. -/
structure Face where
  /-- Its identifier. -/
  id : Nat
  /-- Its token. -/
  token : Token
  deriving DecidableEq, Repr

/-- The engine's face table, the tasks, and the forwarder's token. -/
structure Host where
  /-- The face table. -/
  faces : List Face
  /-- All tasks so far. -/
  tasks : List Task
  /-- Whether the forwarder's token is cancelled. -/
  cancelled : Bool
  deriving DecidableEq, Repr

/-- What resumes a task. -/
inductive Signal
  /-- Its certificate and socket are ready, or not. -/
  | bound (ok : Bool)
  /-- It is polled at the head of its loop. An unbiased `select!` may look at the token first. -/
  | poll (tokenFirst : Bool)
  /-- It is woken by the forwarder's token. -/
  | token
  /-- `accept` returns. -/
  | accept (ok : Bool)
  /-- The WebSocket handshake ends. -/
  | handshake (ok : Bool)
  /-- Its sleep is over. -/
  | resume
  /-- The dialled connection is there, or not. -/
  | dialed (ok : Bool)
  deriving DecidableEq, Repr

/-- A step of a task, or of the forwarder around the tasks. `alloc` is what `alloc_id` returns if it
is called in the step. -/
inductive Event
  /-- A listener is spawned, or a `faces/create` request reaches its provisioner. -/
  | launch (role : Role) (alloc : Nat)
  /-- The task is resumed. -/
  | task (i : Nat) (signal : Signal) (alloc : Nat)
  /-- The forwarder shuts down. -/
  | shutdown
  /-- The token of a face is cancelled. -/
  | stopFace (face : Nat)
  /-- The engine takes a face off its table. -/
  | removeFace (face : Nat)
  /-- Another part of the forwarder adds a face under an identifier it draws, or gives one up. -/
  | elsewhere (token : Option Token) (alloc : Nat)
  deriving DecidableEq, Repr

section Turns

/-- What a task does from one await to the next. -/
structure Turn where
  /-- Where it stands then. -/
  phase : Phase
  /-- What it has drawn from `alloc_id`. -/
  drawn : Option Nat
  /-- The face it has added. -/
  face : Option Face
  deriving DecidableEq, Repr

/-- Going to another phase, and nothing else. -/
def Turn.goto (p : Phase) : Turn := ⟨p, none, none⟩

/-- The loop that `run_webrtc_listener` spawns for a session. Its `select!` is biased: a
cancelled token is seen before the accepted peer. -/
def Host.runWebRtcListener (s : Host) (alloc : Nat) : Phase → Signal → Turn
  | .loopHead, .poll _ => if s.cancelled then .goto .returned else .goto .accepting
  | .accepting, .token => .goto (if s.cancelled then .returned else .accepting)
  | .accepting, .accept ok =>
    if s.cancelled then .goto .returned
    else if ok then ⟨.pausing, some alloc, some ⟨alloc, .forwarder⟩⟩
    else .goto .pausing
  | .pausing, .resume => .goto .loopHead
  | p, _ => .goto p

/-- An accept loop that allocates the identifier inside `select!`, before it accepts. -/
def Host.allocAndAccept (s : Host) (alloc : Nat) : Phase → Signal → Turn
  | .binding, .bound ok => .goto (if ok then .loopHead else .returned)
  | .loopHead, .poll tokenFirst =>
    if s.cancelled && tokenFirst then .goto .returned
    else ⟨.allocated alloc, some alloc, none⟩
  | .allocated face, .token => .goto (if s.cancelled then .returned else .allocated face)
  | .allocated face, .accept ok =>
    if ok then ⟨.loopHead, none, some ⟨face, .child false⟩⟩ else .goto .loopHead
  | p, _ => .goto p

/-- `run_wt_listener`. -/
def Host.runWtListener (s : Host) (alloc : Nat) : Phase → Signal → Turn := s.allocAndAccept alloc

/-- `run_quic_listener`. -/
def Host.runQuicListener (s : Host) (alloc : Nat) : Phase → Signal → Turn :=
  s.allocAndAccept alloc

/-- `run_ws_listener`. The handshake is awaited outside `select!`. -/
def Host.runWsListener (s : Host) (alloc : Nat) : Phase → Signal → Turn
  | .binding, .bound ok => .goto (if ok then .loopHead else .returned)
  | .loopHead, .poll tokenFirst =>
    .goto (if s.cancelled && tokenFirst then .returned else .accepting)
  | .accepting, .token => .goto (if s.cancelled then .returned else .accepting)
  | .accepting, .accept ok => .goto (if ok then .handshaking else .loopHead)
  | .handshaking, .handshake ok =>
    if ok then ⟨.loopHead, some alloc, some ⟨alloc, .child false⟩⟩ else .goto .loopHead
  | p, _ => .goto p

/-- The end of `provision`, once the identifier is allocated. -/
def provision : Phase → Signal → Turn
  | .dialing face, .dialed ok =>
    if ok then ⟨.returned, none, some ⟨face, .own false⟩⟩ else .goto .returned
  | p, _ => .goto p

/-- The turn of a task. -/
def Host.turn (s : Host) (t : Task) (signal : Signal) (alloc : Nat) : Turn :=
  match t.role with
  | .webRtc => s.runWebRtcListener alloc t.phase signal
  | .webTransport => s.runWtListener alloc t.phase signal
  | .quic => s.runQuicListener alloc t.phase signal
  | .webSocket => s.runWsListener alloc t.phase signal
  | .dial => provision t.phase signal

end Turns

section Step

/-- `add_face`: the table has one entry for an identifier. -/
def Host.addFace (s : Host) (face : Face) : Host :=
  { s with faces := s.faces.filter (fun f => f.id != face.id) ++ [face] }

/-- Cancel a token. The forwarder's is not the face's to cancel alone. -/
def Token.cancel : Token → Token
  | .forwarder => .forwarder
  | .child _ => .child true
  | .own _ => .own true

/-- Cancel the token of a face. -/
def Host.stopFace (s : Host) (id : Nat) : Host :=
  { s with
    faces := s.faces.map fun f => if f.id = id then { f with token := f.token.cancel } else f
    cancelled := s.cancelled || s.faces.any fun f => f.id = id && f.token = .forwarder }

/-- The host after the turn of a task. -/
def Host.play (s : Host) (i : Nat) (turn : Turn) : Host :=
  let s' := { s with tasks := s.tasks.modify i fun t => { t with phase := turn.phase } }
  match turn.face with
  | some face => s'.addFace face
  | none => s'

/-- A new task. A dialled face has its identifier from the beginning. -/
def Host.launch (s : Host) (alloc : Nat) : Role → Host
  | .webRtc => { s with tasks := s.tasks ++ [⟨.webRtc, .loopHead⟩] }
  | .dial => { s with tasks := s.tasks ++ [⟨.dial, .dialing alloc⟩] }
  | role => { s with tasks := s.tasks ++ [⟨role, .binding⟩] }

/-- The forwarder with its tasks. It emits the faces that are added. -/
def host : Machine Host Event Face where
  step s e :=
    match e with
    | .launch role alloc => (s.launch alloc role, [])
    | .task i signal alloc =>
      match s.tasks[i]? with
      | some t => (s.play i (s.turn t signal alloc), (s.turn t signal alloc).face.toList)
      | none => (s, [])
    | .shutdown => ({ s with cancelled := true }, [])
    | .stopFace face => (s.stopFace face, [])
    | .removeFace face => ({ s with faces := s.faces.filter fun f => f.id != face }, [])
    | .elsewhere (some token) alloc => (s.addFace ⟨alloc, token⟩, [⟨alloc, token⟩])
    | .elsewhere none _ => (s, [])

/-- The identifiers in the face table. -/
def Host.ids (s : Host) : List Nat := s.faces.map Face.id

@[simp] theorem Host.play_tasks (s : Host) (i : Nat) (t : Turn) :
    (s.play i t).tasks = s.tasks.modify i fun t' => { t' with phase := t.phase } := by
  unfold Host.play
  cases t.face <;> rfl

@[simp] theorem Host.play_cancelled (s : Host) (i : Nat) (t : Turn) :
    (s.play i t).cancelled = s.cancelled := by
  unfold Host.play
  cases t.face <;> rfl

/-- The table after a turn: the face it added, and the others as they were. -/
theorem Host.play_faces (s : Host) (i : Nat) (t : Turn) :
    (s.play i t).faces = match t.face with
      | some face => s.faces.filter (fun f => f.id != face.id) ++ [face]
      | none => s.faces := by
  unfold Host.play
  cases t.face <;> rfl

end Step

end NdnFwd.Listen
