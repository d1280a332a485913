import NdnFwd.Core.Digits
import NdnFwd.Core.Machine
import NdnFwd.Core.Utf8
import NdnFwd.Models.Packet.Name

/-!
# The consumer of the traffic generator

`run_consumer` sends one Interest after the other and waits for a packet after each, for four
seconds at most. The engine answers an Interest once or not at all, whenever it likes, and the
handle queues what it delivers. The loop never looks at the name of a packet.
-/

namespace NdnFwd.Traffic

/-- The arguments of `run_consumer`. A rate only delays its sends. -/
structure Flow where
  namePrefix : Name
  flowId : Nat
  count : Nat
  deriving DecidableEq, Repr

/-- `build_name`. -/
def buildName (namePrefix : Name) (flow seq : Nat) : Name :=
  namePrefix ++ [.generic (asBytes "flow-" ++ Digits.decimal flow), .generic (Digits.decimal seq)]

/-- A packet that the engine delivers. -/
inductive Packet
  | data (name : Name)
  | nack (name : Name)
  deriving DecidableEq, Repr

/-- The Interest that it answers. -/
def Packet.name : Packet → Name
  | data n | nack n => n

/-- `is_lp_packet`: of the two, a Nack is one. -/
def isLpPacket : Packet → Bool
  | .nack _ => true
  | .data _ => false

/-- `FlowResult`, with times in microseconds. -/
structure FlowResult where
  sent : Nat
  received : Nat
  rtts : List Nat
  deriving DecidableEq, Repr

/-- Where an iteration stands. -/
inductive Phase
  /-- Before its Interest is sent. -/
  | sending
  /-- In `handle.recv()`, under the timeout. -/
  | awaiting
  /-- The loop is over. -/
  | returned
  deriving DecidableEq, Repr

/-- The task, its handle, and what the engine has still to answer. -/
structure State where
  seq : Nat
  phase : Phase
  t0 : Nat
  result : FlowResult
  /-- The packets that the handle holds, oldest first. -/
  channel : List Packet
  /-- The Interests that have been sent and not been answered. -/
  unanswered : List Name
  deriving DecidableEq, Repr

/-- What happens to a flow. -/
inductive Event
  /-- `handle.send` comes back. -/
  | send (now : Nat) (ok : Bool)
  /-- `handle.recv` takes the oldest packet. -/
  | receive (now : Nat)
  /-- The timeout expires, or the handle is closed. Either way `recv` has found no packet. -/
  | noReply
  /-- The engine delivers a packet. -/
  | deliver (p : Packet)
  deriving DecidableEq, Repr

namespace Flow

variable (flow : Flow)

/-- The name of the Interest that an iteration sends. -/
def name (seq : Nat) : Name := buildName flow.namePrefix flow.flowId seq

/-- The phase at the head of the loop. -/
def phaseAt (seq : Nat) : Phase := if seq < flow.count then .sending else .returned

/-- Before the first Interest. -/
def start : State := ⟨0, flow.phaseAt 0, 0, ⟨0, 0, []⟩, [], []⟩

/-- The end of an iteration. -/
def next (s : State) : State := { s with seq := s.seq + 1, phase := flow.phaseAt (s.seq + 1) }

/-- The state after the Interest of an iteration was sent. -/
def sent (now : Nat) (s : State) : State :=
  { s with
    phase := .awaiting
    t0 := now
    result := { s.result with sent := s.result.sent + 1 }
    unanswered := flow.name s.seq :: s.unanswered }

end Flow

/-- What a packet adds to the figures: a Nack counts as loss. -/
def FlowResult.record (r : FlowResult) (p : Packet) (rtt : Nat) : FlowResult :=
  if isLpPacket p then r
  else { r with received := r.received + 1, rtts := r.rtts ++ [rtt % 2 ^ 64] }

/-- A delivery, to the end of the channel. -/
def State.deliver (s : State) (p : Packet) : State :=
  { s with channel := s.channel ++ [p], unanswered := s.unanswered.erase p.name }

/-- The state that goes on from a packet. -/
def State.take (s : State) (now : Nat) (p : Packet) (rest : List Packet) : State :=
  { s with channel := rest, result := s.result.record p (now - s.t0) }

/-- `run_consumer` and the engine. What does not apply leaves the state as it is. -/
def consumer (flow : Flow) : Machine State Event Name where
  step s
    | .send now ok =>
      if s.phase = .sending then
        if ok then (flow.sent now s, [flow.name s.seq]) else ({ s with phase := .returned }, [])
      else (s, [])
    | .receive now =>
      match s.phase, s.channel with
      | .awaiting, p :: rest => (flow.next (s.take now p rest), [])
      | _, _ => (s, [])
    | .noReply => if s.phase = .awaiting ∧ s.channel = [] then (flow.next s, []) else (s, [])
    | .deliver p => if s.unanswered.contains p.name then (s.deliver p, []) else (s, [])

/-- The packet that the awaiting iteration takes. -/
def taken (s : State) : Event → Option Packet
  | .receive _ => if s.phase = .awaiting then s.channel.head? else none
  | _ => none

variable {flow : Flow} {s : State}

/-- The Interests of a flow differ in name. -/
theorem name_injective (flow : Flow) : Function.Injective flow.name := by
  intro j k h
  have hlast := List.append_cancel_left h
  simp only [NameComponent.generic, List.cons.injEq, NameComponent.mk.injEq, true_and,
    and_true] at hlast
  exact Digits.decimal_injective hlast

/-- What one event can do. -/
inductive Move (flow : Flow) (s : State) : Event → State → Prop
  | stay (e : Event) : Move flow s e s
  | sent (now : Nat) (h : s.phase = .sending) : Move flow s (.send now true) (flow.sent now s)
  | broke (now : Nat) (h : s.phase = .sending) :
      Move flow s (.send now false) { s with phase := .returned }
  | took (now : Nat) {p : Packet} {rest : List Packet} (h : s.phase = .awaiting)
      (hchannel : s.channel = p :: rest) :
      Move flow s (.receive now) (flow.next (s.take now p rest))
  | gaveUp (h : s.phase = .awaiting) (hchannel : s.channel = []) :
      Move flow s .noReply (flow.next s)
  | delivered {p : Packet} (h : p.name ∈ s.unanswered) : Move flow s (.deliver p) (s.deliver p)

/-- Every step is a move. -/
theorem move_step (flow : Flow) (s : State) (e : Event) :
    Move flow s e ((consumer flow).step s e).1 := by
  cases e with
  | send now ok =>
    by_cases h : s.phase = .sending
    · cases ok with
      | true => simpa [consumer, h] using Move.sent now h
      | false => simpa [consumer, h] using Move.broke now h
    · simpa [consumer, h] using Move.stay (.send now ok)
  | receive now =>
    dsimp only [consumer]
    split
    next p rest hphase hchannel => exact .took now hphase hchannel
    · exact .stay _
  | noReply =>
    by_cases h : s.phase = .awaiting ∧ s.channel = []
    · simpa [consumer, h] using Move.gaveUp h.1 h.2
    · simpa [consumer, h] using Move.stay .noReply
  | deliver p =>
    by_cases h : p.name ∈ s.unanswered
    · simpa [consumer, h] using Move.delivered h
    · simpa [consumer, h] using Move.stay (.deliver p)

/-- At the head of the loop no reply is awaited. -/
theorem phaseAt_ne_awaiting (seq : Nat) : flow.phaseAt seq ≠ .awaiting := by
  rw [Flow.phaseAt]
  split_ifs <;> simp

private theorem lt_of_phaseAt {seq : Nat} (h : flow.phaseAt seq ≠ .returned) :
    seq < flow.count := by
  rw [Flow.phaseAt] at h
  split_ifs at h with hlt
  · exact hlt
  · exact absurd rfl h

/-- There are Interests left to be sent. -/
theorem phaseAt_of_lt {seq : Nat} (h : seq < flow.count) : flow.phaseAt seq = .sending := if_pos h

@[simp] theorem next_seq : (flow.next s).seq = s.seq + 1 := rfl

@[simp] theorem next_phase : (flow.next s).phase = flow.phaseAt (s.seq + 1) := rfl

@[simp] theorem next_channel : (flow.next s).channel = s.channel := rfl

@[simp] theorem next_result : (flow.next s).result = s.result := rfl

@[simp] theorem take_seq (now : Nat) (p : Packet) (rest : List Packet) :
    (s.take now p rest).seq = s.seq := rfl

@[simp] theorem record_sent (r : FlowResult) (p : Packet) (rtt : Nat) :
    (r.record p rtt).sent = r.sent := by
  cases p <;> rfl

/-- The Interests that a packet answers or may still answer. -/
def State.pending (s : State) : List Name := s.unanswered ++ s.channel.map Packet.name

/-- What holds in every state: the loop counts its Interests, and every packet that is there
answers one of them, which no other packet answers. -/
structure Inv (flow : Flow) (s : State) : Prop where
  bound : s.phase ≠ .returned → s.seq < flow.count
  sending : s.phase = .sending → s.result.sent = s.seq
  awaiting : s.phase = .awaiting → s.result.sent = s.seq + 1
  asked : ∀ n ∈ s.pending, ∃ k < s.result.sent, n = flow.name k
  distinct : s.pending.Nodup

/-- Before the first Interest. -/
theorem inv_start (flow : Flow) : Inv flow flow.start where
  bound := lt_of_phaseAt
  sending := fun _ => rfl
  awaiting := fun h => absurd h (phaseAt_ne_awaiting 0)
  asked := by simp [Flow.start, State.pending]
  distinct := by simp [Flow.start, State.pending]

/-- The end of an iteration, with what is left of the channel. -/
theorem Inv.next (h : Inv flow s) (hphase : s.phase = .awaiting) {t : State}
    (hseq : t.seq = s.seq) (hsent : t.result.sent = s.result.sent)
    (hpending : t.pending.Sublist s.pending) : Inv flow (flow.next t) where
  bound := lt_of_phaseAt
  sending := fun _ => by rw [next_result, next_seq, hsent, hseq, h.awaiting hphase]
  awaiting := fun h' => absurd h' (phaseAt_ne_awaiting _)
  asked := fun n hn => by
    rw [next_result, hsent]
    exact h.asked n (hpending.subset hn)
  distinct := h.distinct.sublist hpending

/-- An Interest is sent. -/
theorem Inv.sent (h : Inv flow s) (hphase : s.phase = .sending) (now : Nat) :
    Inv flow (flow.sent now s) where
  bound := fun _ => h.bound (by simp [hphase])
  sending := fun h' => by simp [Flow.sent] at h'
  awaiting := fun _ => congrArg (· + 1) (h.sending hphase)
  asked := by
    intro n hn
    rcases List.mem_cons.mp hn with rfl | hn
    · exact ⟨s.seq, by simp [Flow.sent, h.sending hphase], rfl⟩
    · obtain ⟨k, hk, rfl⟩ := h.asked n hn
      exact ⟨k, Nat.lt_succ_of_lt hk, rfl⟩
  distinct := by
    refine List.nodup_cons.mpr ⟨fun hmem => ?_, h.distinct⟩
    -- the name is new: the Interests sent before it have lower numbers
    obtain ⟨k, hk, hname⟩ := h.asked _ hmem
    have hsent := h.sending hphase
    have hseq := name_injective flow hname
    omega

private theorem pending_deliver {p : Packet} (h : p.name ∈ s.unanswered) :
    (s.deliver p).pending.Perm s.pending := by
  rw [State.pending, State.deliver, List.map_append, List.map_singleton, ← List.append_assoc]
  refine List.perm_append_singleton _ _ |>.trans ?_
  exact (List.perm_cons_erase h).symm.append_right _

/-- A reply is delivered. -/
theorem Inv.deliver (h : Inv flow s) {p : Packet} (hp : p.name ∈ s.unanswered) :
    Inv flow (s.deliver p) where
  bound := h.bound
  sending := h.sending
  awaiting := h.awaiting
  asked := fun n hn => h.asked n ((pending_deliver hp).mem_iff.mp hn)
  distinct := (pending_deliver hp).nodup_iff.mpr h.distinct

/-- The flow ends. -/
theorem Inv.broke (h : Inv flow s) : Inv flow { s with phase := .returned } where
  bound := fun h' => absurd rfl h'
  sending := nofun
  awaiting := nofun
  asked := h.asked
  distinct := h.distinct

/-- A step of the flow. -/
theorem inv_step (h : Inv flow s) (e : Event) : Inv flow ((consumer flow).step s e).1 := by
  have hmove := move_step flow s e
  generalize ((consumer flow).step s e).1 = t at hmove ⊢
  cases hmove with
  | stay => exact h
  | sent now hphase => exact h.sent hphase now
  | broke => exact h.broke
  | took now hphase hchannel =>
    refine h.next hphase rfl (record_sent ..) ?_
    rw [State.pending, State.pending, hchannel]
    exact (List.sublist_cons_self _ _).append_left _
  | gaveUp hphase => exact h.next hphase rfl rfl (List.Sublist.refl _)
  | delivered hp => exact h.deliver hp

/-- So it is in every run. -/
theorem inv_run (flow : Flow) (es : List Event) :
    Inv flow ((consumer flow).run flow.start es) :=
  (consumer flow).run_invariant (I := Inv flow) (P := fun _ => True)
    (fun _ e h _ => inv_step h e) (inv_start flow) fun _ _ => trivial

end NdnFwd.Traffic
