import NdnFwd.Models.Sync.Balance

/-!
# What passes the observer

Between the group and the face, packets are neither repeated nor overtaken, whatever the order in
which the tasks and the group go on. One is dropped only when its reader ends: the sender with what
it holds and what is queued for it, or the group with what is queued for it and what the receiver
still holds. The updates printed are the first that the group has told, as many as were asked for if
the tool succeeds and fewer if it fails; and the tool is never stuck.
-/

namespace NdnFwd.PsyncConsumer

variable {υ : Type*} {cli : Cli} {s : State υ}

section Verdict

/-- How many updates have been printed when the tool ends so. One is printed even if none was
asked for. -/
def Outcome.Fits (cli : Cli) (printed : Nat) : Outcome → Prop
  | ok => printed = max cli.count 1
  | timedOut seen => seen = printed ∧ printed < max cli.count 1
  | stopped => printed < max cli.count 1

/-- What the main task knows where it is. It only returns without its tasks if the group has
stopped. -/
def State.Verdict (cli : Cli) (s : State υ) : Main → Prop
  | .watching => s.seen < max cli.count 1
  | .joiningSender outcome => outcome.Fits cli s.seen
  | .joiningReceiver outcome => outcome.Fits cli s.seen ∧ s.sender.hasEnded = true
  | .returned outcome => outcome.Fits cli s.seen ∧
      (outcome ≠ .stopped → s.sender.hasEnded = true ∧ s.receiver.hasEnded = true)

/-- The channels have room, a channel is closed exactly when its reader has ended, the receiver only
loses a packet to a group that has ended, and the tasks are told when the main task is done. -/
structure Kept (cli : Cli) (s : State υ) : Prop where
  outRoom : s.outbound.held.length ≤ channelCap
  inRoom : s.inbound.held.length ≤ channelCap
  outClosed : s.outbound.isClosed = s.sender.hasEnded
  lost : s.receiver.lost ≠ [] → s.inbound.isClosed = true
  cancelled : s.main ≠ .watching → s.cancelled = true
  verdict : s.Verdict cli s.main

/-- Nothing has happened. -/
theorem kept_start (cli : Cli) : Kept (υ := υ) cli .start where
  outRoom := Nat.zero_le _
  inRoom := Nat.zero_le _
  outClosed := rfl
  lost h := absurd rfl h
  cancelled h := absurd rfl h
  verdict := Nat.lt_of_lt_of_le Nat.zero_lt_one (Nat.le_max_right _ _)

variable {t : State υ}

/-- The verdict stands while no ended task goes on. -/
theorem State.Verdict.congr {m : Main} (h : s.Verdict cli m) (hseen : t.seen = s.seen)
    (hs : s.sender.hasEnded = true → t.sender.hasEnded = true)
    (hr : s.receiver.hasEnded = true → t.receiver.hasEnded = true) : t.Verdict cli m := by
  cases m with
  | watching =>
    rw [State.Verdict, hseen]
    exact h
  | joiningSender outcome =>
    rw [State.Verdict, hseen]
    exact h
  | joiningReceiver outcome =>
    rw [State.Verdict, hseen]
    exact ⟨h.1, hs h.2⟩
  | returned outcome =>
    rw [State.Verdict, hseen]
    exact ⟨h.1, fun hne => ⟨hs (h.2 hne).1, hr (h.2 hne).2⟩⟩

/-- A turn of the group. -/
theorem kept_group (h : Kept cli s) (e : GroupEvent υ) : Kept cli (groupStep s e).1 := by
  cases e with
  | sends packet =>
    simp only [groupStep]
    split
    next queue _ hqueue =>
      split_ifs with hfull
      · exact h
      · refine { h with outRoom := ?_, outClosed := ?_ }
        · rw [Channel.held_opened, List.length_append, List.length_singleton]
          omega
        · rw [← h.outClosed, hqueue]
          rfl
    · exact h
  | takes =>
    simp only [groupStep]
    split
    next packet rest hqueue =>
      have hroom := h.inRoom
      rw [hqueue, Channel.held_opened, List.length_cons] at hroom
      refine { h with inRoom := Nat.le_of_succ_le hroom, lost := fun hlost => ?_ }
      have hclosed := h.lost hlost
      rw [hqueue] at hclosed
      exact hclosed
    · exact h
  | tells update =>
    simp only [groupStep]
    split_ifs
    · exact h
    · exact { h with }
  | ends =>
    refine { h with inRoom := ?_, lost := fun _ => rfl }
    exact (congrArg List.length (Channel.held_close s.inbound)).le.trans h.inRoom

private theorem kept_endSender (h : Kept cli s) (dropped : Option Bytes) :
    Kept cli (s.endSender dropped) :=
  { h with
    outRoom := (congrArg List.length (Channel.held_close s.outbound)).le.trans h.outRoom
    outClosed := rfl
    verdict := h.verdict.congr rfl (fun _ => rfl) id }

/-- A turn of the sender. -/
theorem kept_sender (h : Kept cli s) (e : SenderEvent) : Kept cli (senderStep s e).1 := by
  cases e with
  | takes =>
    simp only [senderStep]
    split
    next packet rest hsender hqueue =>
      have hroom := h.outRoom
      have hclosed := h.outClosed
      rw [hqueue, Channel.held_opened, List.length_cons] at hroom
      refine { h with
        outRoom := Nat.le_of_succ_le hroom
        outClosed := rfl
        verdict := h.verdict.congr rfl (fun hended => ?_) id }
      rw [hsender] at hended
      cases hended
    · exact h
  | sends ok =>
    simp only [senderStep]
    split
    next packet hsender =>
      split_ifs
      · have hclosed := h.outClosed
        rw [hsender] at hclosed
        refine { h with
          outClosed := hclosed
          verdict := h.verdict.congr rfl (fun hended => ?_) id }
        rw [hsender] at hended
        cases hended
      · exact kept_endSender h (some packet)
    · exact h
  | stops =>
    simp only [senderStep]
    split
    · exact kept_endSender h none
    · exact h

/-- A turn of the receiver. -/
theorem kept_receiver (h : Kept cli s) (e : ReceiverEvent) :
    Kept cli (receiverStep s e).1 := by
  have hending : ∀ dropped : Option Bytes,
      (dropped.toList ≠ [] → s.inbound.isClosed = true) →
      Kept cli { s with receiver := .ended dropped } := fun dropped hlost =>
    { h with lost := hlost, verdict := h.verdict.congr rfl id fun _ => rfl }
  cases e with
  | delivers packet =>
    simp only [receiverStep]
    split
    next hreceiver =>
      refine { h with
        lost := fun hlost => absurd rfl hlost
        verdict := h.verdict.congr rfl id fun hended => ?_ }
      rw [hreceiver] at hended
      cases hended
    · exact hending none fun hne => absurd rfl hne
    · exact h
  | passes =>
    simp only [receiverStep]
    split
    next packet left _ hclosed => exact hending (some packet) fun _ => by rw [hclosed]; rfl
    next packet queue hreceiver _ =>
      split_ifs with hfull
      · exact h
      · refine { h with
          inRoom := ?_
          lost := fun hlost => absurd rfl hlost
          verdict := h.verdict.congr rfl id fun hended => ?_ }
        · rw [Channel.held_opened, List.length_append, List.length_singleton]
          omega
        · rw [hreceiver] at hended
          cases hended
    · exact h
  | stops =>
    simp only [receiverStep]
    split
    · exact hending none fun hne => absurd rfl hne
    · exact h

/-- A turn of the main task. -/
theorem kept_main (h : Kept cli s) (e : MainEvent) : Kept cli (mainStep cli s e).1 := by
  have hverdict := h.verdict
  cases e with
  | deadline =>
    simp only [mainStep]
    split
    next hmain =>
      rw [hmain] at hverdict
      exact { h with cancelled := fun _ => rfl, verdict := ⟨rfl, hverdict⟩ }
    · exact h
  | updateReady =>
    simp only [mainStep]
    split
    next hmain hupdates =>
      rw [hmain] at hverdict
      have hlt : s.seen < max cli.count 1 := hverdict
      split_ifs with hcount
      · have hnext : s.seen + 1 = max cli.count 1 := by omega
        exact { h with cancelled := fun _ => rfl, verdict := hnext }
      · have hnext : s.seen + 1 < max cli.count 1 := by omega
        refine { h with cancelled := fun hne => absurd hmain hne, verdict := ?_ }
        rw [hmain]
        exact hnext
    next hmain hupdates =>
      rw [hmain] at hverdict
      split_ifs
      · exact { h with
          cancelled := fun _ => rfl
          verdict := ⟨hverdict, fun hne => absurd rfl hne⟩ }
      · exact h
    · exact h
  | joined =>
    simp only [mainStep]
    split
    next hmain =>
      rw [hmain] at hverdict
      have hcancel : s.cancelled = true := h.cancelled (by rw [hmain]; exact Main.noConfusion)
      split_ifs with hended
      · exact { h with cancelled := fun _ => hcancel, verdict := ⟨hverdict, hended⟩ }
      · exact h
    next hmain =>
      rw [hmain] at hverdict
      have hcancel : s.cancelled = true := h.cancelled (by rw [hmain]; exact Main.noConfusion)
      split_ifs with hended
      · exact { h with
          cancelled := fun _ => hcancel
          verdict := ⟨hverdict.1, fun _ => ⟨hverdict.2, hended⟩⟩ }
      · exact h
    · exact h

private theorem kept_step (h : Kept cli s) (e : Event υ) : Kept cli ((main cli).step s e).1 := by
  rw [main]
  dsimp only
  split_ifs
  · exact h
  · cases e with
    | group e => exact kept_group h e
    | sender e => exact kept_sender h e
    | receiver e => exact kept_receiver h e
    | main e => exact kept_main h e

/-- So it is in every run. -/
theorem kept_run (cli : Cli) (es : List (Event υ)) : Kept cli ((main cli).run .start es) :=
  (main cli).run_invariant (I := Kept cli) (P := fun _ => True) (fun _ e h _ => kept_step h e)
    (kept_start cli) fun _ _ => trivial

end Verdict

section Count

/-- The count goes with what is printed. -/
theorem seen_run (cli : Cli) (es : List (Event υ)) : ((main cli).run .start es).seen =
    (((main cli).sent .start es).filterMap Output.printed?).length := by
  induction es using List.reverseRecOn with
  | nil => rfl
  | append_singleton es e ih =>
    rw [Machine.run_snoc, Machine.sent_snoc, (balances_step cli _ e).seen, ih,
      List.filterMap_append, List.length_append]

end Count

section Ending

/-- The send under way fails, if there is one, and the sender sees the cancellation. -/
theorem sender_ends (hrun : s.main.hasReturned = false) (hcancelled : s.cancelled = true)
    (hclosed : s.outbound.isClosed = s.sender.hasEnded) :
    ∃ c : Courier, c.hasEnded = true ∧
      (main cli).run s [.sender (.sends false), .sender .stops] =
        { s with sender := c, outbound := s.outbound.close } := by
  cases hs : s.sender with
  | selecting =>
    exact ⟨.ended none, rfl, by simp [main, advance, senderStep, State.endSender, hrun, hs,
      hcancelled]⟩
  | carrying packet =>
    exact ⟨.ended (some packet), rfl, by simp [main, advance, senderStep, State.endSender, hrun,
      hs]⟩
  | ended dropped =>
    rw [hs] at hclosed
    have hout : s.outbound.close = s.outbound := by
      cases ho : s.outbound with
      | opened queue =>
        rw [ho] at hclosed
        cases hclosed
      | closed left => simp [Channel.close]
    have hsame : { s with sender := .ended dropped } = s := by rw [← hs]
    exact ⟨.ended dropped, rfl, by simp [main, advance, senderStep, hrun, hs, hout, hsame]⟩

/-- The group takes no more, and the receiver sees the cancellation. -/
theorem receiver_ends (hrun : s.main.hasReturned = false) (hcancelled : s.cancelled = true)
    (hgroup : s.groupEnded = true) : ∃ c : Courier, c.hasEnded = true ∧
      (main cli).run s [.receiver .passes, .receiver .stops] = { s with receiver := c } := by
  obtain ⟨left, hleft⟩ : ∃ left, s.inbound = .closed left := by
    cases hi : s.inbound with
    | opened queue =>
      rw [State.groupEnded, hi] at hgroup
      cases hgroup
    | closed left => exact ⟨left, rfl⟩
  cases hr : s.receiver with
  | selecting =>
    exact ⟨.ended none, rfl, by simp [main, advance, receiverStep, hrun, hr, hcancelled]⟩
  | carrying packet =>
    exact ⟨.ended (some packet), rfl, by simp [main, advance, receiverStep, hrun, hr, hleft]⟩
  | ended dropped =>
    have hsame : { s with receiver := .ended dropped } = s := by rw [← hr]
    exact ⟨.ended dropped, rfl, by simp [main, advance, receiverStep, hrun, hr, hsame]⟩

private theorem hasReturned_joined (hmain : s.main ≠ .watching) (hs : s.sender.hasEnded = true)
    (hr : s.receiver.hasEnded = true) :
    ((main cli).run s [.main .joined, .main .joined]).main.hasReturned = true := by
  cases hm : s.main with
  | watching => exact absurd hm hmain
  | joiningSender outcome => simp [main, advance, mainStep, hm, hs, hr, Main.hasReturned]
  | joiningReceiver outcome => simp [main, advance, mainStep, hm, hr, Main.hasReturned]
  | returned outcome => simp [main, hm, Main.hasReturned]

/-- The group and the time end. -/
theorem cancelled_deadline (h : Kept cli s) (hrun : s.main.hasReturned = false) :
    let t := (main cli).run s [.group .ends, .main .deadline]
    t.main.hasReturned = false ∧ t.main ≠ .watching ∧ t.cancelled = true ∧
      t.groupEnded = true ∧ Kept cli t := by
  refine ⟨?_, ?_, ?_, ?_, kept_step (kept_step h _) _⟩ <;> cases hm : s.main with
  | watching =>
    simp [main, advance, groupStep, mainStep, hm, Main.hasReturned, State.groupEnded]
  | joiningSender outcome =>
    have hcancelled : s.cancelled = true := h.cancelled (by rw [hm]; exact Main.noConfusion)
    simp [main, advance, groupStep, mainStep, hm, hcancelled, Main.hasReturned, State.groupEnded]
  | joiningReceiver outcome =>
    have hcancelled : s.cancelled = true := h.cancelled (by rw [hm]; exact Main.noConfusion)
    simp [main, advance, groupStep, mainStep, hm, hcancelled, Main.hasReturned, State.groupEnded]
  | returned outcome =>
    rw [hm] at hrun
    cases hrun

/-- Whatever the tool waits for comes to an end. -/
def ending : List (Event υ) :=
  [.group .ends, .main .deadline] ++ [.sender (.sends false), .sender .stops] ++
    [.receiver .passes, .receiver .stops] ++ [.main .joined, .main .joined]

private theorem hasReturned_ending (h : Kept cli s) :
    ((main cli).run s ending).main.hasReturned = true := by
  cases hrun : s.main.hasReturned with
  | true => simp [ending, main, hrun]
  | false =>
    obtain ⟨hrun', hmain, hcancelled, hgroup, hkept⟩ := cancelled_deadline h hrun
    rw [ending, Machine.run_append, Machine.run_append, Machine.run_append]
    generalize (main cli).run s [.group .ends, .main .deadline] = t
      at hrun' hmain hcancelled hgroup hkept ⊢
    obtain ⟨c, hc, hsender⟩ := @sender_ends _ cli t hrun' hcancelled hkept.outClosed
    rw [hsender]
    obtain ⟨d, hd, hreceiver⟩ := @receiver_ends _ cli
      { t with sender := c, outbound := t.outbound.close } hrun' hcancelled hgroup
    rw [hreceiver]
    exact hasReturned_joined hmain hc hd

end Ending

section Outcome

/-- What the sender has dropped when it ended: the packet that it failed to send, and those still
queued for it. -/
def State.outDropped (s : State υ) : List Bytes := s.sender.lost ++ s.outbound.dropped

/-- What is under way to the face. -/
def State.outUnderWay (s : State υ) : List Bytes := s.sender.carried ++ s.outbound.queue

/-- What was dropped when the group ended: the packets queued for it, and the one that the receiver
could not pass on any more. -/
def State.inDropped (s : State υ) : List Bytes := s.inbound.dropped ++ s.receiver.lost

/-- What is under way to the group. -/
def State.inUnderWay (s : State υ) : List Bytes := s.inbound.queue ++ s.receiver.carried

/-- What a run of the tool guarantees. -/
structure Relays (cli : Cli) (os : List (Output υ)) (s : State υ) : Prop where
  /-- What the group has sent has gone out in order, was dropped or is under way. -/
  outbound : os.filterMap Output.queued? =
    os.filterMap Output.sent? ++ (s.outDropped ++ s.outUnderWay)
  /-- Nothing is dropped before the sender ends, and nothing stays under way after. -/
  outEnd : (s.sender.hasEnded = false → s.outDropped = []) ∧
    (s.sender.hasEnded = true → s.outUnderWay = [] ∧ s.outDropped.length ≤ channelCap + 1)
  /-- What the face has delivered has been handed over in order, was dropped or is under way. -/
  inbound : os.filterMap Output.received? =
    os.filterMap Output.handed? ++ (s.inDropped ++ s.inUnderWay)
  /-- Nothing is dropped before the group ends, and nothing but the receiver's packet stays. -/
  inEnd : (s.groupEnded = false → s.inDropped = []) ∧
    (s.groupEnded = true → s.inUnderWay = s.receiver.carried ∧
      s.inDropped.length ≤ channelCap + 1)
  updates : os.filterMap Output.emitted? = os.filterMap Output.printed? ++ s.updates
  room : s.outbound.queue.length ≤ channelCap ∧ s.inbound.queue.length ≤ channelCap
  unfinished : s.main = .watching → (os.filterMap Output.printed?).length < max cli.count 1
  finished : ∀ outcome, s.main = .returned outcome →
    outcome.Fits cli (os.filterMap Output.printed?).length ∧
      (outcome ≠ .stopped → s.sender.hasEnded = true ∧ s.receiver.hasEnded = true)

private theorem length_lost_le (c : Courier) : c.lost.length ≤ 1 := by
  cases c with
  | ended dropped => cases dropped <;> simp [Courier.lost]
  | _ => exact Nat.zero_le 1

private theorem length_dropped_le (c : Channel Bytes) : c.dropped.length ≤ c.held.length := by
  rw [Channel.held, List.length_append]
  exact Nat.le_add_right _ _

private theorem length_queue_le (c : Channel Bytes) : c.queue.length ≤ c.held.length := by
  rw [Channel.held, List.length_append]
  exact Nat.le_add_left _ _

/-- All that the sender's side holds was dropped, or all is under way. -/
theorem Kept.outbound (h : Kept cli s) :
    s.sender.hand ++ s.outbound.held = s.outDropped ++ s.outUnderWay ∧
      (s.sender.hasEnded = false → s.outDropped = []) ∧
      (s.sender.hasEnded = true → s.outUnderWay = [] ∧ s.outDropped.length ≤ channelCap + 1) := by
  have hclosed := h.outClosed
  have hroom := h.outRoom
  simp only [State.outDropped, State.outUnderWay, Courier.hand, Channel.held]
  cases hs : s.sender with
  | selecting =>
    rw [hs] at hclosed
    simp [Courier.lost, Courier.carried, Courier.hasEnded, Channel.dropped_of_open hclosed]
  | carrying packet =>
    rw [hs] at hclosed
    simp [Courier.lost, Courier.carried, Courier.hasEnded, Channel.dropped_of_open hclosed]
  | ended dropped =>
    rw [hs] at hclosed
    have hlost := length_lost_le (.ended dropped)
    have hdropped := length_dropped_le s.outbound
    have hnone : (Courier.ended dropped).carried ++ s.outbound.queue = [] :=
      Channel.queue_of_closed hclosed
    refine ⟨?_, (fun hne => by cases hne), fun _ => ⟨hnone, ?_⟩⟩
    · rw [hnone, List.append_nil]
      simp [Courier.carried, Channel.queue_of_closed hclosed]
    · rw [List.length_append]
      omega

/-- What the receiver's side holds was dropped with the group or after it, or is under way. -/
theorem Kept.inbound (h : Kept cli s) :
    s.inbound.held ++ s.receiver.hand = s.inDropped ++ s.inUnderWay ∧
      (s.groupEnded = false → s.inDropped = []) ∧
      (s.groupEnded = true → s.inUnderWay = s.receiver.carried ∧
        s.inDropped.length ≤ channelCap + 1) := by
  have hroom := h.inRoom
  have hlost := length_lost_le s.receiver
  have hdropped := length_dropped_le s.inbound
  simp only [State.inDropped, State.inUnderWay, Courier.hand, Channel.held, State.groupEnded]
  cases hended : s.inbound.isClosed with
  | false =>
    have hnone : s.receiver.lost = [] := by
      by_contra hne
      rw [h.lost hne] at hended
      cases hended
    simp [hnone, Channel.dropped_of_open hended]
  | true =>
    simp only [Channel.queue_of_closed hended, List.append_nil, List.nil_append,
      List.append_assoc, List.length_append, true_and, Bool.true_eq_false, false_implies,
      true_implies]
    omega

/-- Whatever the order in which the tasks and the group go on, packets pass in order, none is
repeated and none is lost but with a reader that ends; the first updates are printed, as many as the
outcome says; and the tool can still come to an end. -/
theorem observer_relays (cli : Cli) (es : List (Event υ)) :
    Relays cli ((main cli).sent .start es) ((main cli).run .start es) ∧
      ∃ es', ((main cli).run .start (es ++ es')).main.hasReturned = true := by
  have hkept := kept_run cli es
  have hverdict := hkept.verdict
  have hseen := seen_run cli es
  obtain ⟨hout, houtEnd⟩ := hkept.outbound
  obtain ⟨hin, hinEnd⟩ := hkept.inbound
  constructor
  · refine ⟨?_, houtEnd, ?_, hinEnd, (told υ cli).run_held .start es,
      ⟨(length_queue_le _).trans hkept.outRoom, (length_queue_le _).trans hkept.inRoom⟩,
      fun hmain => ?_, fun outcome hmain => ?_⟩
    · rw [← hout]
      exact (PsyncConsumer.outbound υ cli).run_held .start es
    · rw [← hin]
      exact (PsyncConsumer.inbound υ cli).run_held .start es
    · rw [hmain] at hverdict
      rw [← hseen]
      exact hverdict
    · rw [hmain] at hverdict
      rw [← hseen]
      exact hverdict
  · refine ⟨ending, ?_⟩
    rw [Machine.run_append]
    exact hasReturned_ending hkept

/-- Asked for no update, the tool still waits for one. -/
example : ((main ⟨0⟩).run State.start [.group (.tells "a"), .main .updateReady, .sender .stops,
    .receiver .stops, .main .joined, .main .joined]).main = .returned .ok := rfl

/-- The first of three packets cannot be sent, and all are dropped. -/
example : ((main (υ := String) ⟨1⟩).run State.start [.group (.sends [1]), .group (.sends [2]),
    .group (.sends [3]), .sender .takes, .sender (.sends false)]).outDropped =
      [[1], [2], [3]] := rfl

end Outcome

end NdnFwd.PsyncConsumer
