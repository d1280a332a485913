import NdnFwd.Models.Sync.Consumer

/-!
# How packets move through the observer

Every turn of the group, of a task or of the main loop lets out what it takes in, or keeps it, in
order. What is dropped stays on the books, in the hand of a task that has ended or in a closed
channel. The parts of either way make one passage.
-/

namespace NdnFwd.PsyncConsumer

variable {υ : Type*} {cli : Cli} {s : State υ}

section Balance

/-- What a step takes in at each place it lets out or keeps, in order. -/
structure Balances (s : State υ) (r : State υ × List (Output υ)) : Prop where
  outbound : s.outbound.held ++ r.2.filterMap Output.queued? =
    r.2.filterMap Output.taken? ++ r.1.outbound.held
  sender : s.sender.hand ++ r.2.filterMap Output.taken? =
    r.2.filterMap Output.sent? ++ r.1.sender.hand
  receiver : s.receiver.hand ++ r.2.filterMap Output.received? =
    r.2.filterMap Output.passed? ++ r.1.receiver.hand
  inbound : s.inbound.held ++ r.2.filterMap Output.passed? =
    r.2.filterMap Output.handed? ++ r.1.inbound.held
  updates : s.updates ++ r.2.filterMap Output.emitted? =
    r.2.filterMap Output.printed? ++ r.1.updates
  seen : r.1.seen = s.seen + (r.2.filterMap Output.printed?).length

/-- A step that moves nothing. -/
private theorem Balances.silent {t : State υ} (ho : t.outbound.held = s.outbound.held)
    (hs : t.sender.hand = s.sender.hand) (hr : t.receiver.hand = s.receiver.hand)
    (hi : t.inbound.held = s.inbound.held) (hu : t.updates = s.updates) (hn : t.seen = s.seen) :
    Balances s (t, []) := by
  refine ⟨?_, ?_, ?_, ?_, ?_, ?_⟩
  · simp [ho]
  · simp [hs]
  · simp [hr]
  · simp [hi]
  · simp [hu]
  · simp [hn]

private theorem balances_stay (s : State υ) : Balances s (s, []) :=
  .silent rfl rfl rfl rfl rfl rfl

/-- What the group sends is queued, and what it takes was queued for it. -/
theorem balances_group (s : State υ) (e : GroupEvent υ) : Balances s (groupStep s e) := by
  cases e with
  | sends packet =>
    simp only [groupStep]
    split
    next queue _ hqueue =>
      split_ifs
      · exact balances_stay s
      · constructor <;> simp [List.filterMap_cons, hqueue]
    · exact balances_stay s
  | takes =>
    simp only [groupStep]
    split
    next hqueue => constructor <;> simp [List.filterMap_cons, hqueue]
    · exact balances_stay s
  | tells update =>
    simp only [groupStep]
    split_ifs
    · exact balances_stay s
    · constructor <;> simp [List.filterMap_cons]
  | ends => exact .silent rfl rfl rfl (Channel.held_close _) rfl rfl

private theorem balances_endSender {dropped : Option Bytes}
    (h : (Courier.ended dropped).hand = s.sender.hand) :
    Balances s (s.endSender dropped, []) :=
  .silent (Channel.held_close _) h rfl rfl rfl rfl

/-- What the sender takes up it sends, or holds when it ends. -/
theorem balances_sender (s : State υ) (e : SenderEvent) : Balances s (senderStep s e) := by
  cases e with
  | takes =>
    simp only [senderStep]
    split
    next hsender hqueue =>
      constructor <;>
        simp [List.filterMap_cons, Courier.hand, Courier.lost, Courier.carried, hsender, hqueue]
    · exact balances_stay s
  | sends ok =>
    simp only [senderStep]
    split
    next hsender =>
      split_ifs
      · constructor <;>
          simp [List.filterMap_cons, Courier.hand, Courier.lost, Courier.carried, hsender]
      · exact balances_endSender (by rw [hsender]; rfl)
    · exact balances_stay s
  | stops =>
    simp only [senderStep]
    split
    next hsender _ => exact balances_endSender (by rw [hsender]; rfl)
    · exact balances_stay s

/-- What the receiver is given it passes on, or holds when it ends. -/
theorem balances_receiver (s : State υ) (e : ReceiverEvent) : Balances s (receiverStep s e) := by
  cases e with
  | delivers packet =>
    simp only [receiverStep]
    split
    next hreceiver =>
      constructor <;>
        simp [List.filterMap_cons, Courier.hand, Courier.lost, Courier.carried, hreceiver]
    next hreceiver => exact .silent rfl rfl (by rw [hreceiver]; rfl) rfl rfl rfl
    · exact balances_stay s
  | passes =>
    simp only [receiverStep]
    split
    next hreceiver _ => exact .silent rfl rfl (by rw [hreceiver]; rfl) rfl rfl rfl
    next hreceiver hqueue =>
      split_ifs
      · exact balances_stay s
      · constructor <;>
          simp [List.filterMap_cons, Courier.hand, Courier.lost, Courier.carried, hreceiver, hqueue]
    · exact balances_stay s
  | stops =>
    simp only [receiverStep]
    split
    next hreceiver _ => exact .silent rfl rfl (by rw [hreceiver]; rfl) rfl rfl rfl
    · exact balances_stay s

/-- The main loop prints the update that comes first, and counts it. -/
theorem balances_main (cli : Cli) (s : State υ) (e : MainEvent) :
    Balances s (mainStep cli s e) := by
  cases e with
  | deadline =>
    simp only [mainStep]
    split
    · exact .silent rfl rfl rfl rfl rfl rfl
    · exact balances_stay s
  | updateReady =>
    simp only [mainStep]
    split
    next hupdates =>
      split_ifs <;> constructor <;> simp [List.filterMap_cons, hupdates]
    next hupdates =>
      split_ifs
      · exact .silent rfl rfl rfl rfl rfl rfl
      · exact balances_stay s
    · exact balances_stay s
  | joined =>
    simp only [mainStep]
    split
    · split_ifs
      · exact .silent rfl rfl rfl rfl rfl rfl
      · exact balances_stay s
    · split_ifs
      · exact .silent rfl rfl rfl rfl rfl rfl
      · exact balances_stay s
    · exact balances_stay s

private theorem balances_advance (cli : Cli) (s : State υ) (e : Event υ) :
    Balances s (advance cli s e) := by
  cases e with
  | group e => exact balances_group s e
  | sender e => exact balances_sender s e
  | receiver e => exact balances_receiver s e
  | main e => exact balances_main cli s e

/-- Every step balances. -/
theorem balances_step (cli : Cli) (s : State υ) (e : Event υ) :
    Balances s ((main cli).step s e) := by
  rw [main]
  dsimp only
  split_ifs
  · exact balances_stay s
  · exact balances_advance cli s e

/-- From the group to the face: the channel, and then the hand of the sender. -/
def outbound (υ : Type*) (cli : Cli) : (main (υ := υ) cli).Passage Bytes :=
  Machine.Passage.andThen
    ⟨Output.queued?, Output.taken?, fun s => s.outbound.held,
      fun s e => (balances_step cli s e).outbound⟩
    ⟨Output.taken?, Output.sent?, fun s => s.sender.hand, fun s e => (balances_step cli s e).sender⟩
    rfl

/-- From the face to the group: the hand of the receiver, and then the channel. -/
def inbound (υ : Type*) (cli : Cli) : (main (υ := υ) cli).Passage Bytes :=
  Machine.Passage.andThen
    ⟨Output.received?, Output.passed?, fun s => s.receiver.hand,
      fun s e => (balances_step cli s e).receiver⟩
    ⟨Output.passed?, Output.handed?, fun s => s.inbound.held,
      fun s e => (balances_step cli s e).inbound⟩
    rfl

/-- From the group to the terminal. -/
def told (υ : Type*) (cli : Cli) : (main (υ := υ) cli).Passage υ :=
  ⟨Output.emitted?, Output.printed?, State.updates, fun s e => (balances_step cli s e).updates⟩

end Balance

end NdnFwd.PsyncConsumer
