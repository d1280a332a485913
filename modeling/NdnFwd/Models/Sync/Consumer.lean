import NdnFwd.Core.Passage
import NdnFwd.Core.Word

/-!
# The observer of a sync group

`ndn-psync-consumer` stands between a face and a sync group. One task carries packets from the
group to the face, another from the face to the group, each over a bounded channel, and the main
loop prints updates until it has seen enough or the time is up. A reader that ends takes down what
its channel still holds. The group itself belongs to the sync library: it sends packets, takes them,
tells updates, and ends when it likes, in any case once its handle has left.
-/

namespace NdnFwd.PsyncConsumer

/-- The arguments that the loop reads. -/
structure Cli where
  count : Nat
  deriving DecidableEq, Repr

/-- The capacity of either channel. -/
def channelCap : Nat := 256

/-- A task that carries packets one at a time. The packet it fails to pass on ends it. -/
inductive Courier
  /-- In its `select!`. -/
  | selecting
  | carrying (packet : Bytes)
  | ended (dropped : Option Bytes)
  deriving DecidableEq, Repr

namespace Courier

/-- The packet on its way. -/
def carried : Courier → List Bytes
  | carrying packet => [packet]
  | _ => []

/-- The packet that it failed to pass on. -/
def lost : Courier → List Bytes
  | ended dropped => dropped.toList
  | _ => []

/-- Either of them. -/
def hand (c : Courier) : List Bytes := c.lost ++ c.carried

/-- Whether the task has ended. -/
def hasEnded : Courier → Bool
  | ended _ => true
  | _ => false

end Courier

/-- How the tool ends. -/
inductive Outcome
  | ok
  /-- `timed out after observing {seen}/{count} PSync updates`. -/
  | timedOut (seen : Nat)
  /-- `PSync task stopped before observing {count} updates`. -/
  | stopped
  deriving DecidableEq, Repr

/-- Where the main task is. -/
inductive Main
  | watching
  | joiningSender (outcome : Outcome)
  | joiningReceiver (outcome : Outcome)
  | returned (outcome : Outcome)
  deriving DecidableEq, Repr

/-- Whether the program has returned. -/
def Main.hasReturned : Main → Bool
  | returned _ => true
  | _ => false

/-- The channels, the tasks and the program. -/
structure State (υ : Type*) where
  /-- From the group to the sender. -/
  outbound : Channel Bytes
  /-- From the receiver to the group, which has ended once it is closed. -/
  inbound : Channel Bytes
  /-- Updates that the handle has still to give. -/
  updates : List υ
  sender : Courier
  receiver : Courier
  cancelled : Bool
  main : Main
  seen : Nat

/-- All tasks have been spawned. -/
def State.start {υ : Type*} : State υ :=
  ⟨.opened [], .opened [], [], .selecting, .selecting, false, .watching, 0⟩

/-- Whether the group has ended. -/
def State.groupEnded {υ : Type*} (s : State υ) : Bool := s.inbound.isClosed

/-- What the group does. -/
inductive GroupEvent (υ : Type*)
  | sends (packet : Bytes)
  | takes
  | tells (update : υ)
  | ends

/-- What the sender finds. -/
inductive SenderEvent
  /-- It finds a packet first. The cancellation may come while it does. -/
  | takes
  /-- `send_raw` returns. -/
  | sends (ok : Bool)
  | stops

/-- What the receiver finds. -/
inductive ReceiverEvent
  /-- `recv_raw` returns; `none` is a closed face. -/
  | delivers (packet : Option Bytes)
  /-- The channel to the group is asked again. -/
  | passes
  | stops

/-- What the program finds. -/
inductive MainEvent
  | deadline
  /-- `handle.recv()` is asked. -/
  | updateReady
  /-- A task that is waited for is asked. -/
  | joined

/-- Whose turn it is. -/
inductive Event (υ : Type*)
  | group (e : GroupEvent υ)
  | sender (e : SenderEvent)
  | receiver (e : ReceiverEvent)
  | main (e : MainEvent)

/-- What can be seen of a step: how packets and updates go. -/
inductive Output (υ : Type*)
  | queued (packet : Bytes)
  | taken (packet : Bytes)
  | sent (packet : Bytes)
  | received (packet : Bytes)
  | passed (packet : Bytes)
  | handed (packet : Bytes)
  | emitted (update : υ)
  | printed (update : υ)

namespace Output

variable {υ : Type*}

/-- The packet that the group puts into the channel of the sender. -/
@[simp] def queued? : Output υ → Option Bytes
  | queued packet => some packet
  | _ => none

/-- The packet that the sender takes. -/
@[simp] def taken? : Output υ → Option Bytes
  | taken packet => some packet
  | _ => none

/-- The packet that is sent. -/
@[simp] def sent? : Output υ → Option Bytes
  | sent packet => some packet
  | _ => none

/-- The packet that is received. -/
@[simp] def received? : Output υ → Option Bytes
  | received packet => some packet
  | _ => none

/-- The packet that the receiver passes on. -/
@[simp] def passed? : Output υ → Option Bytes
  | passed packet => some packet
  | _ => none

/-- The packet that the group takes. -/
@[simp] def handed? : Output υ → Option Bytes
  | handed packet => some packet
  | _ => none

/-- The update that the group tells. -/
@[simp] def emitted? : Output υ → Option υ
  | emitted update => some update
  | _ => none

/-- The update that is printed. -/
@[simp] def printed? : Output υ → Option υ
  | printed update => some update
  | _ => none

end Output

section Step

variable {υ : Type*} (cli : Cli)

/-- A turn of the group. It can send as long as the sender reads, and when it ends it leaves behind
what it has not taken. -/
def groupStep (s : State υ) : GroupEvent υ → State υ × List (Output υ)
  | .sends packet =>
    match s.groupEnded, s.outbound with
    | false, .opened queue =>
      if channelCap ≤ queue.length then (s, [])
      else ({ s with outbound := .opened (queue ++ [packet]) }, [.queued packet])
    | _, _ => (s, [])
  | .takes =>
    match s.inbound with
    | .opened (packet :: rest) => ({ s with inbound := .opened rest }, [.handed packet])
    | _ => (s, [])
  | .tells update =>
    if s.groupEnded then (s, [])
    else ({ s with updates := s.updates ++ [update] }, [.emitted update])
  | .ends => ({ s with inbound := s.inbound.close }, [])

/-- The sender has ended, and its channel with it. -/
def State.endSender (s : State υ) (dropped : Option Bytes) : State υ :=
  { s with sender := .ended dropped, outbound := s.outbound.close }

/-- A turn of the task that carries packets to the face. -/
def senderStep (s : State υ) : SenderEvent → State υ × List (Output υ)
  | .takes =>
    match s.sender, s.outbound with
    | .selecting, .opened (packet :: rest) =>
      ({ s with outbound := .opened rest, sender := .carrying packet }, [.taken packet])
    | _, _ => (s, [])
  | .sends ok =>
    match s.sender with
    | .carrying packet =>
      if ok then ({ s with sender := .selecting }, [.sent packet])
      else (s.endSender (some packet), [])
    | _ => (s, [])
  | .stops =>
    match s.sender, s.cancelled with
    | .selecting, true => (s.endSender none, [])
    | _, _ => (s, [])

/-- A turn of the task that carries packets from the face. -/
def receiverStep (s : State υ) : ReceiverEvent → State υ × List (Output υ)
  | .delivers packet =>
    match s.receiver, packet with
    | .selecting, some packet => ({ s with receiver := .carrying packet }, [.received packet])
    | .selecting, none => ({ s with receiver := .ended none }, [])
    | _, _ => (s, [])
  | .passes =>
    match s.receiver, s.inbound with
    | .carrying packet, .closed _ => ({ s with receiver := .ended (some packet) }, [])
    | .carrying packet, .opened queue =>
      if channelCap ≤ queue.length then (s, [])
      else ({ s with inbound := .opened (queue ++ [packet]), receiver := .selecting },
        [.passed packet])
    | _, _ => (s, [])
  | .stops =>
    match s.receiver, s.cancelled with
    | .selecting, true => ({ s with receiver := .ended none }, [])
    | _, _ => (s, [])

/-- A turn of the main loop, or of the waiting after it. -/
def mainStep (s : State υ) : MainEvent → State υ × List (Output υ)
  | .deadline =>
    match s.main with
    | .watching => ({ s with main := .joiningSender (.timedOut s.seen), cancelled := true }, [])
    | _ => (s, [])
  | .updateReady =>
    match s.main, s.updates with
    | .watching, update :: rest =>
      let s := { s with updates := rest, seen := s.seen + 1 }
      if cli.count ≤ s.seen then
        ({ s with main := .joiningSender .ok, cancelled := true }, [.printed update])
      else (s, [.printed update])
    | .watching, [] =>
      if s.groupEnded then ({ s with main := .returned .stopped, cancelled := true }, [])
      else (s, [])
    | _, _ => (s, [])
  | .joined =>
    match s.main with
    | .joiningSender outcome =>
      if s.sender.hasEnded then ({ s with main := .joiningReceiver outcome }, []) else (s, [])
    | .joiningReceiver outcome =>
      if s.receiver.hasEnded then ({ s with main := .returned outcome }, []) else (s, [])
    | _ => (s, [])

/-- A step while the tool runs. -/
def advance (s : State υ) : Event υ → State υ × List (Output υ)
  | .group e => groupStep s e
  | .sender e => senderStep s e
  | .receiver e => receiverStep s e
  | .main e => mainStep cli s e

/-- `main`, once connected. When it returns, the process ends and its tasks with it. -/
def main : Machine (State υ) (Event υ) (Output υ) where
  step s e := if s.main.hasReturned then (s, []) else advance cli s e

end Step

end NdnFwd.PsyncConsumer
