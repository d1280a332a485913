import NdnFwd.Models.Traffic.Consumer

/-!
# Which reply an iteration takes

The packets in the handle wait for their turn: each iteration that finds one takes the oldest. A
reply that comes while its own iteration waits is taken by it. One that comes later shifts every
reply after it, because the loop takes it for the answer to the Interest that it is at by then.
-/

namespace NdnFwd.Traffic

variable (flow : Flow)

/-- The iteration that an event belongs to counts and times nothing but the Data for its own
Interest, and does not take the reply to an earlier one for its answer. -/
structure PairsReply (s : State) (e : Event) : Prop where
  counted : ((consumer flow).step s e).1.result.received ≠ s.result.received ∨
    ((consumer flow).step s e).1.result.rtts ≠ s.result.rtts →
      taken s e = some (.data (flow.name s.seq))
  notLate : ∀ k < s.seq, ∀ p, taken s e = some p → p.name ≠ flow.name k

/-- Every reply of a run is paired with its own Interest. -/
def Paired (es : List Event) : Prop :=
  ∀ v ∈ (consumer flow).visits flow.start es, PairsReply flow v.1 v.2

/-- A reply comes while the iteration of its Interest awaits it, or after the loop, or when the
packets before it are enough for the iterations that are left. -/
def OnTime (s : State) (e : Event) : Prop :=
  ∀ p, e = .deliver p → p.name ∈ s.unanswered →
    s.phase = .awaiting ∧ p.name = flow.name s.seq ∨ s.phase = .returned ∨
      flow.count ≤ s.seq + s.channel.length

/-- An event of the task itself. -/
def Event.OfTask (e : Event) : Prop := ∀ p, e ≠ .deliver p

/-- Every packet in the handle answers the Interest of the iteration that will take it. -/
def Settled (s : State) : Prop :=
  s.phase ≠ .returned → ∀ i p, s.channel[i]? = some p → s.seq + i < flow.count →
    p.name = flow.name (s.seq + i)

variable {flow} {s : State} {e : Event} {p : Packet}

private theorem ofTask_receive (now : Nat) : (Event.receive now).OfTask := by
  intro p he
  cases he

private theorem Event.OfTask.onTime (h : e.OfTask) : OnTime flow s e := fun p he => absurd he (h p)

section Taking

private theorem taken_eq_some (h : taken s e = some p) :
    s.phase = .awaiting ∧ s.channel[0]? = some p := by
  cases e with
  | receive now =>
    rw [taken] at h
    split_ifs at h with hphase
    rw [List.head?_eq_getElem?] at h
    exact ⟨hphase, h⟩
  | _ => cases h

private theorem record_changes {r : FlowResult} {rtt : Nat}
    (h : (r.record p rtt).received ≠ r.received ∨ (r.record p rtt).rtts ≠ r.rtts) :
    p = .data p.name := by
  cases p with
  | data n => rfl
  | nack n => exact absurd h (by simp [FlowResult.record, isLpPacket])

/-- The figures change with a Data packet that is taken, and not otherwise. -/
theorem exists_taken (h : ((consumer flow).step s e).1.result.received ≠ s.result.received ∨
    ((consumer flow).step s e).1.result.rtts ≠ s.result.rtts) :
    ∃ n, taken s e = some (.data n) := by
  have hmove := move_step flow s e
  generalize ((consumer flow).step s e).1 = t at h hmove
  cases hmove with
  | @took now p rest hphase hchannel =>
    have hdata : p = .data p.name := record_changes h
    refine ⟨p.name, ?_⟩
    rw [taken, if_pos hphase, hchannel, ← hdata]
    rfl
  | stay => simp at h
  | sent => simp [Flow.sent] at h
  | broke => simp at h
  | gaveUp => simp [Flow.next] at h
  | delivered => simp [State.deliver] at h

/-- An iteration that takes the reply to its own Interest alone pairs it. -/
theorem pairsReply_of_own (h : ∀ p, taken s e = some p → p.name = flow.name s.seq) :
    PairsReply flow s e where
  counted := by
    intro hchanged
    obtain ⟨n, hn⟩ := exists_taken hchanged
    have hname : n = flow.name s.seq := h _ hn
    rw [hn, hname]
  notLate := by
    intro k hk p hp hname
    have hseq := name_injective flow ((h p hp).symm.trans hname)
    omega

end Taking

section OnTime

private theorem Settled.pairsReply (h : Settled flow s) (hinv : Inv flow s) (e : Event) :
    PairsReply flow s e := by
  apply pairsReply_of_own
  intro p hp
  obtain ⟨hphase, hhead⟩ := taken_eq_some hp
  have hne : s.phase ≠ .returned := by simp [hphase]
  exact h hne 0 p hhead (hinv.bound hne)

/-- Once an iteration awaits its reply, an unanswered Interest of its name has an empty queue. -/
theorem Settled.channel_eq_nil (h : Settled flow s) (hinv : Inv flow s)
    (hphase : s.phase = .awaiting) (hmem : flow.name s.seq ∈ s.unanswered) : s.channel = [] := by
  cases hchannel : s.channel with
  | nil => rfl
  | cons q rest =>
    have hne : s.phase ≠ .returned := by simp [hphase]
    have hname : q.name = flow.name s.seq := h hne 0 q (by simp [hchannel]) (hinv.bound hne)
    have hqueued : flow.name s.seq ∈ s.channel.map Packet.name := by simp [hchannel, hname]
    exact absurd rfl ((List.nodup_append.mp hinv.distinct).2.2 _ hmem _ hqueued)

/-- A reply arrives in time. -/
theorem Settled.deliver (h : Settled flow s) (hinv : Inv flow s) (hp : p.name ∈ s.unanswered)
    (hon : OnTime flow s (.deliver p)) : Settled flow (s.deliver p) := by
  intro hphase i q hget hcount
  by_cases hi : i < s.channel.length
  · exact h hphase i q (by rwa [State.deliver, List.getElem?_append_left hi] at hget) hcount
  · -- the new packet is last in the queue
    obtain ⟨rfl, rfl⟩ : i = s.channel.length ∧ q = p := by
      rw [State.deliver, List.getElem?_append_right (Nat.le_of_not_lt hi),
        List.getElem?_singleton] at hget
      split_ifs at hget with hzero
      exact ⟨by omega, (Option.some.inj hget).symm⟩
    rcases hon q rfl hp with ⟨hawaiting, hname⟩ | hreturned | hlast
    · have hnil := h.channel_eq_nil hinv hawaiting (hname ▸ hp)
      rw [hname, hnil]
      rfl
    · exact absurd hreturned hphase
    · exact absurd hcount (Nat.not_lt.mpr hlast)

private theorem settled_step (h : Settled flow s) (hinv : Inv flow s) (hon : OnTime flow s e) :
    Settled flow ((consumer flow).step s e).1 := by
  have hmove := move_step flow s e
  generalize ((consumer flow).step s e).1 = t at hmove ⊢
  cases hmove with
  | stay => exact h
  | sent now hphase => exact fun _ => h (by simp [hphase])
  | broke => exact fun hphase => absurd rfl hphase
  | @took now p rest hphase hchannel =>
    -- every packet moves up by one, and so does the iteration
    intro _ i q hget hcount
    have hget' : s.channel[i + 1]? = some q := by rwa [hchannel, List.getElem?_cons_succ]
    have hseq : (flow.next (s.take now p rest)).seq + i = s.seq + (i + 1) := by
      rw [next_seq, take_seq]
      omega
    rw [hseq] at hcount ⊢
    exact h (by simp [hphase]) (i + 1) q hget' hcount
  | gaveUp _ hchannel =>
    intro _ i q hget
    rw [next_channel, hchannel] at hget
    cases hget
  | delivered hp => exact h.deliver hinv hp hon

private theorem settled_run {es : List Event}
    (hon : ∀ v ∈ (consumer flow).visits flow.start es, OnTime flow v.1 v.2) :
    Settled flow ((consumer flow).run flow.start es) := by
  have hstart : Settled flow flow.start := by
    intro _ i q hget
    cases hget
  refine ((consumer flow).run_of_visits (I := fun s => Inv flow s ∧ Settled flow s)
    (G := fun v => OnTime flow v.1 v.2) ?_ ⟨inv_start flow, hstart⟩ hon).2
  exact fun s e h hv => ⟨inv_step h.1 e, settled_step h.2 h.1 hv⟩

/-- If every reply of a run is on time, all are paired. -/
theorem paired_of_onTime {es : List Event}
    (hon : ∀ v ∈ (consumer flow).visits flow.start es, OnTime flow v.1 v.2) : Paired flow es := by
  intro v hv
  obtain ⟨js, hjs, hrun⟩ := (consumer flow).exists_prefix_of_mem_visits hv
  have hsettled : Settled flow ((consumer flow).run flow.start js) := settled_run fun u hu =>
    hon u ((consumer flow).mem_visits_of_isPrefix ((List.prefix_append js _).trans hjs) hu)
  rw [← hrun] at hsettled
  exact hsettled.pairsReply (hrun ▸ inv_run flow js) v.2

end OnTime

section Late

private theorem exists_awaiting (flow : Flow) (h : s.phase ≠ .returned) :
    ∃ fs, (∀ e ∈ fs, e.OfTask) ∧
    ((consumer flow).run s fs).phase = .awaiting ∧
    ((consumer flow).run s fs).channel = s.channel ∧ ((consumer flow).run s fs).seq = s.seq := by
  cases hphase : s.phase with
  | sending =>
    have hstep : (consumer flow).run s [.send 0 true] = flow.sent 0 s := by
      simp [consumer, hphase]
    refine ⟨[.send 0 true], by simp [Event.OfTask], ?_⟩
    rw [hstep]
    exact ⟨rfl, rfl, rfl⟩
  | awaiting => exact ⟨[], by simp, hphase, rfl, rfl⟩
  | returned => exact absurd hphase h

/-- A packet comes to the head of the queue after as many iterations as there are packets before
it, if the loop lasts so long. -/
theorem exists_head (flow : Flow) {before : List Packet} (h : s.phase ≠ .returned)
    (hchannel : s.channel = before ++ [p]) (hcount : s.seq + before.length < flow.count) :
    ∃ fs, (∀ e ∈ fs, e.OfTask) ∧ ((consumer flow).run s fs).phase = .awaiting ∧
      ((consumer flow).run s fs).channel = [p] ∧
      ((consumer flow).run s fs).seq = s.seq + before.length := by
  induction before generalizing s with
  | nil =>
    obtain ⟨fs, hfs, hphase, hqueue, hseq⟩ := exists_awaiting flow h
    exact ⟨fs, hfs, hphase, hqueue.trans hchannel, hseq⟩
  | cons q before ih =>
    obtain ⟨fs, hfs, hphase, hqueue, hseq⟩ := exists_awaiting flow h
    generalize hs : (consumer flow).run s fs = t at hphase hqueue hseq
    have hq : t.channel = q :: (before ++ [p]) := hqueue.trans hchannel
    rw [List.length_cons] at hcount ⊢
    have hstep : ((consumer flow).step t (.receive 0)).1 =
        flow.next (t.take 0 q (before ++ [p])) := by simp [consumer, hphase, hq]
    have hnext : (flow.next (t.take 0 q (before ++ [p]))).phase ≠ .returned := by
      rw [next_phase, phaseAt_of_lt (by rw [take_seq]; omega)]
      simp
    have hleft : (flow.next (t.take 0 q (before ++ [p]))).seq + before.length < flow.count := by
      rw [next_seq, take_seq]
      omega
    obtain ⟨gs, hgs, hphase', hqueue', hseq'⟩ := ih hnext rfl hleft
    refine ⟨fs ++ .receive 0 :: gs, ?_, ?_⟩
    · intro e he
      rcases List.mem_append.mp he with he | he
      · exact hfs e he
      · rcases List.mem_cons.mp he with rfl | he
        · exact ofTask_receive 0
        · exact hgs e he
    · rw [Machine.run_append, hs, Machine.run_cons, hstep]
      refine ⟨hphase', hqueue', hseq'.trans ?_⟩
      rw [next_seq, take_seq]
      omega

/-- A reply that is not on time is taken by a later iteration, if the task goes on. -/
theorem exists_mistaken (hinv : Inv flow s) (h : ¬OnTime flow s e) :
    ∃ fs, (∀ e ∈ fs, e.OfTask) ∧
      ¬PairsReply flow ((consumer flow).run s (e :: fs)) (.receive 0) := by
  rw [OnTime] at h
  push Not at h
  obtain ⟨p, rfl, hp, hown, hphase, hcount⟩ := h
  have hstep : ((consumer flow).step s (.deliver p)).1 = s.deliver p := by simp [consumer, hp]
  have hphase' : (s.deliver p).phase ≠ .returned := hphase
  obtain ⟨fs, hfs, hawaiting, hqueue, hseq⟩ := exists_head flow hphase' rfl hcount
  obtain ⟨k, hk, hname⟩ := hinv.asked p.name (List.mem_append_left _ hp)
  -- the Interest is that of an earlier iteration
  have hlate : k < s.seq := by
    cases hnow : s.phase with
    | sending => exact hinv.sending hnow ▸ hk
    | awaiting =>
      have hne : k ≠ s.seq := fun he => hown hnow (he ▸ hname)
      have hsent := hinv.awaiting hnow
      omega
    | returned => exact absurd hnow hphase
  refine ⟨fs, hfs, fun hpairs => ?_⟩
  rw [Machine.run_cons, hstep] at hpairs
  refine hpairs.notLate k ?_ p ?_ hname
  · rw [hseq]
    exact Nat.lt_add_right _ hlate
  · rw [taken, if_pos hawaiting, hqueue]
    rfl

end Late

/-- Every reply of a run is on time exactly if all replies are paired, wherever the engine falls
silent and the task goes on by itself. -/
theorem onTime_iff_paired (flow : Flow) (es : List Event) :
    (∀ v ∈ (consumer flow).visits flow.start es, OnTime flow v.1 v.2) ↔
      ∀ js, js <+: es → ∀ fs, (∀ e ∈ fs, e.OfTask) → Paired flow (js ++ fs) := by
  constructor
  · intro hon js hjs fs hfs
    refine paired_of_onTime fun v hv => ?_
    rw [Machine.visits_append] at hv
    rcases List.mem_append.mp hv with hv | hv
    · exact hon v ((consumer flow).mem_visits_of_isPrefix hjs hv)
    · obtain ⟨ks, ls, rfl, -⟩ := (consumer flow).exists_of_mem_visits hv
      exact (hfs v.2 (by simp)).onTime
  · intro h v hv
    by_contra hlate
    obtain ⟨js, hjs, hrun⟩ := (consumer flow).exists_prefix_of_mem_visits hv
    obtain ⟨fs, hfs, hmistaken⟩ := exists_mistaken (hrun ▸ inv_run flow js) hlate
    have hpaired := h (js ++ [v.2]) hjs (fs ++ [.receive 0]) (by
      intro e he
      rcases List.mem_append.mp he with he | he
      · exact hfs e he
      · rw [List.mem_singleton.mp he]
        exact ofTask_receive 0)
    rw [← List.append_assoc] at hpaired
    have hpairs := hpaired _ ((consumer flow).mem_visits_snoc flow.start (js ++ [v.2] ++ fs) _)
    rw [List.append_assoc, Machine.run_append, ← hrun] at hpairs
    exact hmistaken hpairs

section Sample

/-- Two Interests, without a prefix. -/
def twoInterests : Flow := ⟨[], 0, 2⟩

/-- The Data for the first Interest comes just after the timeout. -/
def lateData : List Event :=
  [.send 0 true, .noReply, .send 4000000 true, .deliver (.data (twoInterests.name 0))]

/-- The second iteration awaits its own reply, and finds that Data. -/
theorem run_lateData : (consumer twoInterests).run twoInterests.start lateData =
    ⟨1, .awaiting, 4000000, ⟨2, 0, []⟩, [.data (twoInterests.name 0)], [twoInterests.name 1]⟩ := by
  have hne : twoInterests.name 1 ≠ twoInterests.name 0 :=
    fun h => absurd (name_injective twoInterests h) (by decide)
  have hcount : twoInterests.count = 2 := rfl
  simp [lateData, consumer, Flow.start, Flow.phaseAt, Flow.sent, Flow.next, State.deliver,
    Packet.name, hcount, hne]

/-- It counts and times it, 100 microseconds after it has sent its Interest. -/
theorem lateData_not_paired : ¬Paired twoInterests (lateData ++ [.receive 4000100]) := by
  intro h
  have hpairs := h _ ((consumer twoInterests).mem_visits_snoc twoInterests.start lateData _)
  rw [run_lateData] at hpairs
  exact hpairs.notLate 0 (by decide) (.data (twoInterests.name 0)) rfl rfl

example : ((consumer twoInterests).run twoInterests.start
    (lateData ++ [.receive 4000100])).result = ⟨2, 1, [100]⟩ := by
  rw [Machine.run_snoc, run_lateData]
  rfl

end Sample

end NdnFwd.Traffic
