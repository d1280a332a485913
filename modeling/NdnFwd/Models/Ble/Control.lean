import NdnFwd.Core.Machine

/-!
# The BLE controller and its listener tasks

`BleControl` keeps the cancellation token of the listener it started last. `stop`
cancels that token, `start` spawns a listener unless the token is live. A listener
binds the GATT server without looking at its token, then serves until it notices the
cancellation or `accept` fails. The controller is never told that it ended.
-/

namespace NdnFwd.Ble

/-- Where a `run_ble_listener` task stands. -/
inductive Phase
  /-- Spawned, not yet polled. -/
  | spawned
  /-- Awaiting `BleListener::bind`. -/
  | binding
  /-- In `select!`, with the face identifier allocated for the next central. -/
  | serving (face : Nat)
  /-- Returned; the GATT server, if bound, is released. -/
  | returned
  deriving DecidableEq, Repr

/-- Binding the GATT server or holding it. -/
def Phase.active : Phase → Bool
  | .binding => true
  | .serving _ => true
  | _ => false

/-- A listener task and its token. -/
structure Listener where
  /-- Where the task stands. -/
  phase : Phase
  /-- Whether its token is cancelled. -/
  cancelled : Bool
  deriving DecidableEq, Repr

/-- `BleControl`, the listeners it has spawned, and the engine's Bluetooth faces. -/
structure Control where
  /-- The listener whose token is stored in `running`. -/
  running : Option Nat
  /-- All listeners so far, in the order in which they were spawned. -/
  listeners : List Listener
  /-- Whether `parent_cancel` is cancelled. -/
  parentCancelled : Bool
  /-- The next identifier of `engine.faces().alloc_id()`. -/
  nextFace : Nat
  /-- The Bluetooth faces in the engine's face table. -/
  faces : List Nat
  deriving DecidableEq, Repr

/-- `BleStatus`. -/
structure BleStatus where
  /-- BLE is compiled in. -/
  supported : Bool
  /-- Whether a listener runs, as the controller believes. -/
  advertising : Bool
  /-- Adapter name. -/
  adapter : Option String
  /-- Number of Bluetooth faces. -/
  connectedCentrals : Nat
  deriving DecidableEq, Repr

/-- A call on the controller, or a step of one of its listeners. -/
inductive Event
  /-- `start`. -/
  | start
  /-- `stop`. -/
  | stop
  /-- `parent_cancel` is cancelled. -/
  | parentCancel
  /-- The engine removes a face. -/
  | faceRemoved (face : Nat)
  /-- The listener is polled for the first time. -/
  | begin (i : Nat)
  /-- `bind` returns. -/
  | bound (i : Nat) (ok : Bool)
  /-- The listener is woken by its token. -/
  | wake (i : Nat)
  /-- `accept` returns. -/
  | accept (i : Nat) (ok : Bool)
  deriving DecidableEq, Repr

/-- A step of a listener, as opposed to a call from outside. -/
def Event.ofTask : Event → Bool
  | .begin _ => true
  | .bound _ _ => true
  | .wake _ => true
  | .accept _ _ => true
  | _ => false

section Step

/-- `running.as_ref().is_some_and(|c| !c.is_cancelled())`. -/
def Control.live (s : Control) : Bool :=
  match s.running with
  | some i => s.listeners[i]?.any fun l => !l.cancelled
  | none => false

/-- `do_start`. A child token of a cancelled parent is cancelled from the beginning. -/
def Control.doStart (s : Control) : Control :=
  if s.live then s
  else
    { s with
      running := some s.listeners.length
      listeners := s.listeners ++ [⟨.spawned, s.parentCancelled⟩] }

/-- Cancel the token of a listener. -/
def Control.cancel (s : Control) (i : Nat) : Control :=
  { s with listeners := s.listeners.modify i fun l => { l with cancelled := true } }

/-- `stop`. -/
def Control.stop (s : Control) : Control :=
  match s.running with
  | some i => { s.cancel i with running := none }
  | none => s

/-- `status`. -/
def Control.status (s : Control) : BleStatus where
  supported := true
  advertising := s.live
  adapter := none
  connectedCentrals := s.faces.length

/-- Move a listener to another phase. -/
def Control.move (s : Control) (i : Nat) (p : Phase) : Control :=
  { s with listeners := s.listeners.modify i fun l => { l with phase := p } }

/-- The head of the accept loop: allocate an identifier and enter `select!`. -/
def Control.loopHead (s : Control) (i : Nat) : Control :=
  { s.move i (.serving s.nextFace) with nextFace := s.nextFace + 1 }

/-- `run_ble_listener`, from one await to the next. -/
def Control.listenerStep (s : Control) (l : Listener) : Event → Control
  | .begin i => if l.phase = .spawned then s.move i .binding else s
  | .bound i ok =>
    if l.phase = .binding then
      if ok then s.loopHead i else s.move i .returned
    else s
  | .wake i =>
    match l.phase with
    | .serving _ => if l.cancelled then s.move i .returned else s
    | _ => s
  | .accept i ok =>
    match l.phase with
    | .serving face =>
      -- `select!` is biased: a cancelled token is seen before the accepted central
      if l.cancelled then s.move i .returned
      else if ok then { s with faces := s.faces ++ [face] }.loopHead i
      else s.move i .returned
    | _ => s
  | _ => s

/-- The listener a task step belongs to. -/
def Event.listener : Event → Nat
  | .begin i => i
  | .bound i _ => i
  | .wake i => i
  | .accept i _ => i
  | _ => 0

/-- The controller and its listeners. -/
def bleControl : Machine Control Event Unit where
  step s e :=
    match e with
    | .start => (s.doStart, [])
    | .stop => (s.stop, [])
    | .parentCancel =>
      ({ s with
          parentCancelled := true
          listeners := s.listeners.map fun l => { l with cancelled := true } }, [])
    | .faceRemoved face => ({ s with faces := s.faces.erase face }, [])
    | e =>
      match s.listeners[e.listener]? with
      | some l => (s.listenerStep l e, [])
      | none => (s, [])

/-- `BleControl::new`. -/
def Control.new (nextFace : Nat) : Control := ⟨none, [], false, nextFace, []⟩

end Step

section Tasks

/-- The listener has not returned. -/
def Control.Unreturned (s : Control) (i : Nat) : Prop :=
  ∃ l, s.listeners[i]? = some l ∧ l.phase ≠ .returned

/-- The listener has begun binding, or holds the GATT server. -/
def Control.Active (s : Control) (i : Nat) : Prop :=
  ∃ l, s.listeners[i]? = some l ∧ l.phase.active = true

/-- The call spawns a listener. -/
def Launches (s : Control) (e : Event) : Prop := e = .start ∧ s.live = false

/-- An active listener has not returned. -/
theorem Control.Active.unreturned {s : Control} {i : Nat} (h : s.Active i) : s.Unreturned i := by
  obtain ⟨l, hl, ha⟩ := h
  refine ⟨l, hl, fun hr => ?_⟩
  rw [hr] at ha
  cases ha

end Tasks

end NdnFwd.Ble
