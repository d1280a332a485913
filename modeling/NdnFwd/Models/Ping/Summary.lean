import NdnFwd.Models.Ping.Client

/-!
# The summary of a ping session

However a session goes, its one summary agrees with the events before it. Every Interest but one
that ended in an error is transmitted, and was answered, refused or timed out. The figures of the
round-trip times are those of the results reported along the way.
-/

namespace NdnFwd.Ping

section Observed

/-- The events among the messages. -/
def events (ms : List Message) : List ToolEvent := ms.filterMap Message.event?

/-- The names of the Interests among them. -/
def interests (ms : List Message) : List Name := ms.filterMap Message.interest?

/-- The payloads that events carry. -/
def structured (ms : List Message) : List ToolData := (events ms).filterMap ToolEvent.structured

/-- How many events have a level. -/
def countLevel (level : EventLevel) (ms : List Message) : Nat :=
  (events ms).countP fun e => e.level = level

/-- The result of one ping. -/
def ToolData.result? : ToolData → Option PingResult
  | pingResult r => some r
  | pingSummary _ => none

/-- The results reported. -/
def results (ms : List Message) : List PingResult := (structured ms).filterMap ToolData.result?

variable {level : EventLevel} (ms ns : List Message) (e : ToolEvent)

@[simp] theorem events_append : events (ms ++ ns) = events ms ++ events ns :=
  List.filterMap_append

@[simp] theorem interests_append : interests (ms ++ ns) = interests ms ++ interests ns :=
  List.filterMap_append

@[simp] theorem structured_append : structured (ms ++ ns) = structured ms ++ structured ns := by
  rw [structured, events_append, List.filterMap_append]
  rfl

@[simp] theorem countLevel_append :
    countLevel level (ms ++ ns) = countLevel level ms + countLevel level ns := by
  rw [countLevel, events_append, List.countP_append]
  rfl

@[simp] theorem events_map_event (es : List ToolEvent) : events (es.map .event) = es := by
  rw [events, List.filterMap_map]
  exact List.filterMap_some

@[simp] theorem interests_map_event (es : List ToolEvent) : interests (es.map .event) = [] := by
  rw [interests, List.filterMap_map]
  exact List.filterMap_none es

end Observed

section Summarise

variable (wire : Wire) (p : PingClientParams) (c : Counts) (elapsedMs : Nat)

/-- The events after the loop: lines, and then one with the summary. -/
theorem summaryEvents_eq : ∃ lines : List ToolEvent,
    summaryEvents wire p c elapsedMs =
      lines ++ [(ToolEvent.summary "").withData (.pingSummary (pingSummary wire c))] ∧
      ∀ e ∈ lines, e.level = .summary ∧ e.structured = none := by
  refine ⟨_, rfl, fun e he => ?_⟩
  simp only [List.mem_append, List.mem_cons, List.not_mem_nil, or_false, Option.mem_toList,
    rttEvent] at he
  rcases he with ((rfl | rfl | rfl) | he) | he
  · exact ⟨rfl, rfl⟩
  · exact ⟨rfl, rfl⟩
  · exact ⟨rfl, rfl⟩
  · split_ifs at he
    obtain rfl := Option.some.inj he
    exact ⟨rfl, rfl⟩
  · split_ifs at he
    · obtain rfl := List.mem_singleton.mp he
      exact ⟨rfl, rfl⟩
    · cases he

/-- The summary carries one payload. -/
theorem structured_summaryEvents :
    structured ((summaryEvents wire p c elapsedMs).map .event) =
      [.pingSummary (pingSummary wire c)] := by
  obtain ⟨lines, heq, hlines⟩ := summaryEvents_eq wire p c elapsedMs
  have hnone : lines.filterMap ToolEvent.structured = [] :=
    List.filterMap_eq_nil_iff.mpr fun e he => (hlines e he).2
  rw [structured, events_map_event, heq, List.filterMap_append, hnone]
  rfl

private theorem countLevel_summaryEvents {level : EventLevel} (h : level ≠ .summary) :
    countLevel level ((summaryEvents wire p c elapsedMs).map .event) = 0 := by
  obtain ⟨lines, heq, hlines⟩ := summaryEvents_eq wire p c elapsedMs
  rw [countLevel, events_map_event, heq, List.countP_eq_zero]
  intro e he
  rcases List.mem_append.mp he with he | he
  · rw [(hlines e he).1]
    simpa using h.symm
  · rw [List.mem_singleton.mp he]
    exact fun hl => h (of_decide_eq_true hl).symm

end Summarise

/-- As many Interests are allowed. -/
def PingClientParams.Allows (p : PingClientParams) (k : Nat) : Prop := p.count ≠ 0 → k ≤ p.count

/-- The messages are those of as many Interests, one of them in error if `failed` is one, and the
variables count them. -/
structure Tells (p : PingClientParams) (ms : List Message) (c : Counts) (asked failed : Nat) :
    Prop where
  allowed : p.Allows asked
  names : interests ms = (List.range asked).map p.pingName
  stream : structured ms = (results ms).map .pingResult
  rtts : (results ms).map PingResult.rttUs = c.rttResults
  ascending : ((results ms).map PingResult.seq).Pairwise (· < ·)
  below : ∀ r ∈ results ms, r.seq < c.seq
  total : c.seq = c.rttResults.length + c.nacks + c.timeouts
  warned : countLevel .warn ms = c.nacks + c.timeouts
  failed : countLevel .error ms = failed

section Session

variable {wire : Wire} {p : PingClientParams} {c : Counts} {ms : List Message} {asked failed : Nat}

private theorem tells_start : Tells p [.event (startEvent wire p)] ⟨[], 0, 0, 0⟩ 0 0 where
  allowed _ := Nat.zero_le _
  names := rfl
  stream := rfl
  rtts := rfl
  ascending := List.Pairwise.nil
  below _ hr := absurd hr List.not_mem_nil
  total := rfl
  warned := rfl
  failed := rfl

/-- An Interest goes out. -/
theorem Tells.ask (h : Tells p ms c c.seq 0) (hallows : p.Allows (c.seq + 1)) :
    Tells p (ms ++ [.interest (p.pingName c.seq) p.lifetimeMs]) c (c.seq + 1) 0 := by
  obtain ⟨-, hi, hs, hr, ha, hb, ht, hw, hf⟩ := h
  have hres : results (ms ++ [.interest (p.pingName c.seq) p.lifetimeMs]) = results ms := by
    rw [results, structured_append]
    exact congrArg _ (List.append_nil _)
  refine ⟨hallows, ?_, ?_, by rwa [hres], by rwa [hres], by rwa [hres], ht, ?_, ?_⟩
  · rw [interests_append, hi, List.range_succ, List.map_append]
    rfl
  · rw [structured_append, hres, hs]
    exact List.append_nil _
  · rw [countLevel_append, hw]
    rfl
  · rw [countLevel_append, hf]
    rfl

/-- It is answered. -/
theorem Tells.data (h : Tells p ms c (c.seq + 1) 0) (name : Name) (rttUs : Nat) :
    Tells p (ms ++ [.event (resultEvent wire c.seq name rttUs)])
      { c with rttResults := c.rttResults ++ [rttUs], seq := c.seq + 1 } (c.seq + 1) 0 := by
  obtain ⟨hl, hi, hs, hr, ha, hb, ht, hw, hf⟩ := h
  have hres : results (ms ++ [.event (resultEvent wire c.seq name rttUs)]) =
      results ms ++ [⟨c.seq, rttUs⟩] := by
    rw [results, structured_append, List.filterMap_append]
    rfl
  refine ⟨hl, ?_, ?_, ?_, ?_, ?_, ?_, ?_, ?_⟩
  · rw [interests_append, hi]
    exact List.append_nil _
  · rw [structured_append, hres, hs, List.map_append]
    rfl
  · rw [hres, List.map_append, hr]
    rfl
  · rw [hres, List.map_append, List.pairwise_append]
    refine ⟨ha, List.pairwise_singleton _ _, fun a ha b hb' => ?_⟩
    obtain ⟨r, hr, rfl⟩ := List.mem_map.mp ha
    rw [List.mem_singleton.mp hb']
    exact hb r hr
  · intro r hr
    rw [hres] at hr
    rcases List.mem_append.mp hr with hr | hr
    · exact Nat.lt_succ_of_lt (hb r hr)
    · rw [List.mem_singleton.mp hr]
      exact Nat.lt_succ_self _
  · rw [List.length_append, List.length_singleton]
    simp only
    omega
  · rw [countLevel_append, hw]
    rfl
  · rw [countLevel_append, hf]
    rfl

/-- An event without a payload, and what it counts for. -/
theorem Tells.note (h : Tells p ms c asked failed) {e : ToolEvent} (he : e.structured = none)
    (d : Counts) (hrtts : d.rttResults = c.rttResults) (hseq : c.seq ≤ d.seq)
    (htotal : d.seq = d.rttResults.length + d.nacks + d.timeouts)
    (hwarned : d.nacks + d.timeouts = c.nacks + c.timeouts + countLevel .warn [.event e]) :
    Tells p (ms ++ [.event e]) d asked (failed + countLevel .error [.event e]) := by
  obtain ⟨hl, hi, hs, hr, ha, hb, -, hw, hf⟩ := h
  have hnil : structured [.event e] = [] := List.filterMap_eq_nil_iff.mpr fun e' he' => by
    rw [List.mem_singleton.mp he', he]
  have hres : results (ms ++ [.event e]) = results ms := by
    rw [results, structured_append, hnil, List.append_nil, results]
  refine ⟨hl, ?_, ?_, ?_, by rwa [hres], ?_, htotal, ?_, ?_⟩
  · rw [interests_append, hi]
    exact List.append_nil _
  · rw [structured_append, hnil, List.append_nil, hres, hs]
  · rw [hres, hr, hrtts]
  · rw [hres]
    exact fun r hr => Nat.lt_of_lt_of_le (hb r hr) hseq
  · rw [countLevel_append, hw, hwarned]
  · rw [countLevel_append, hf]

/-- The messages up to a point of a session. -/
def StreamAt (wire : Wire) (p : PingClientParams) (ms : List Message) : Client → Prop
  | .start => ms = []
  | .fetching c => Tells p ms c (c.seq + 1) 0
  | .sleeping c => Tells p ms c c.seq 0
  | .finished => ∃ body c failed elapsedMs, failed ≤ 1 ∧ Tells p body c (c.seq + failed) failed ∧
      ms = body ++ (summaryEvents wire p c elapsedMs).map .event

private theorem streamAt_finish (h : Tells p ms c asked failed) (hasked : asked = c.seq + failed)
    (hf : failed ≤ 1) (r : Resume) :
    StreamAt wire p (ms ++ (finish wire p c r).2) (finish wire p c r).1 :=
  ⟨ms, c, failed, r.elapsedMs, hf, hasked ▸ h, rfl⟩

private theorem streamAt_enter (h : Tells p ms c c.seq 0) (r : Resume) :
    StreamAt wire p (ms ++ (enter wire p c r).2) (enter wire p c r).1 := by
  rw [enter]
  split_ifs with hcount hclosed
  · exact streamAt_finish h rfl (Nat.zero_le 1) r
  · exact streamAt_finish h rfl (Nat.zero_le 1) r
  · exact h.ask fun hne => by omega

private theorem streamAt_again (h : Tells p ms { c with seq :=
  c.seq + 1 } (c.seq + 1) 0) (r : Resume) :
    StreamAt wire p (ms ++ (again wire p c r).2) (again wire p c r).1 := by
  rw [again]
  split_ifs
  · rw [List.append_nil]
    exact h
  · exact streamAt_enter h r

private theorem streamAt_after {e : ToolEvent} {next : Client × List Message}
    (h : StreamAt wire p ((ms ++ [.event e]) ++ next.2) next.1) :
    StreamAt wire p (ms ++ (after e next).2) (after e next).1 := by
  rwa [List.append_assoc] at h

/-- A resumption continues the stream. -/
theorem streamAt_step {s : Client} (h : StreamAt wire p ms s) (r : Resume) :
    StreamAt wire p (ms ++ (step wire p s r).2) (step wire p s r).1 := by
  cases s with
  | start =>
    obtain rfl : ms = [] := h
    exact streamAt_after (streamAt_enter tells_start r)
  | sleeping c => exact streamAt_enter h r
  | finished =>
    rw [step, List.append_nil]
    exact h
  | fetching c =>
    have htotal := h.total
    rw [step]
    split
    · exact streamAt_after (streamAt_again (h.data ..) r)
    · refine streamAt_after (streamAt_again
        (h.note rfl ⟨c.rttResults, c.timeouts, c.nacks + 1, c.seq + 1⟩ rfl (Nat.le_succ _) ?_ ?_) r)
      · simp only
        omega
      · exact Nat.add_right_comm ..
    · refine streamAt_after (streamAt_again
        (h.note rfl ⟨c.rttResults, c.timeouts + 1, c.nacks, c.seq + 1⟩ rfl (Nat.le_succ _) ?_ ?_) r)
      · simp only
        omega
      · rfl
    · exact streamAt_after (@streamAt_finish _ _ _ _ _ 1
        (h.note rfl c rfl (Nat.le_refl _) htotal rfl) rfl (Nat.le_refl 1) r)

/-- What a client has sent fits where it stands. -/
theorem streamAt_run (wire : Wire) (p : PingClientParams) (rs : List Resume) :
    StreamAt wire p ((runClient wire p).sent .start rs) ((runClient wire p).run .start rs) := by
  induction rs using List.reverseRecOn with
  | nil => rfl
  | append_singleton rs r ih =>
    rw [Machine.run_snoc, Machine.sent_snoc]
    exact streamAt_step ih r

/-- A summary agrees with the messages of its session. -/
structure Agrees (p : PingClientParams) (ms : List Message) (s : PingSummary) : Prop where
  /-- The results come first, each with its own number, and then the summary. -/
  stream : structured ms = (results ms).map .pingResult ++ [.pingSummary s]
  ascending : ((results ms).map PingResult.seq).Pairwise (· < ·)
  below : ∀ r ∈ results ms, r.seq < s.sent
  received : s.received = (results ms).length
  /-- So the loss does not underflow. -/
  total : s.sent = s.received + s.nacks + s.timeouts
  warned : countLevel .warn ms = s.nacks + s.timeouts
  /-- Only an Interest that ended in an error is not transmitted in the eyes of the summary. -/
  names : interests ms = (List.range (s.sent + countLevel .error ms)).map p.pingName
  failed : countLevel .error ms ≤ 1
  allowed : p.Allows (s.sent + countLevel .error ms)

/-- The end of a session: what the messages before the summary tell is what it counts. -/
theorem agrees_of_streamAt (h : StreamAt wire p ms .finished) :
    ∃ c, (results ms).map PingResult.rttUs = c.rttResults ∧ Agrees p ms (pingSummary wire c) := by
  obtain ⟨body, c, failed, elapsedMs, hle, htells, hms⟩ := h
  obtain ⟨hl, hi, hs, hr, ha, hb, ht, hw, hf⟩ := htells
  have hres : results ms = results body := by
    rw [hms, results, structured_append, structured_summaryEvents, List.filterMap_append]
    exact List.append_nil _
  have herr : countLevel .error ms = failed := by
    rw [hms, countLevel_append, countLevel_summaryEvents wire p c elapsedMs (by simp), hf]
    rfl
  refine ⟨c, by rw [hres, hr], ?_, by rwa [hres], by rwa [hres], ?_, ht, ?_, ?_, ?_, ?_⟩
  · rw [hres, hms, structured_append, structured_summaryEvents, hs]
  · rw [hres, ← List.length_map PingResult.rttUs, hr]
    rfl
  · rw [hms, countLevel_append, countLevel_summaryEvents wire p c elapsedMs (by simp), hw]
    rfl
  · rw [herr, hms, interests_append, interests_map_event, List.append_nil, hi]
    rfl
  · rwa [herr]
  · rwa [herr]

/-- A session that is over has a summary. -/
theorem exists_summary {rs : List Resume} (h : (runClient wire p).run .start rs = .finished) :
    ∃ c, (results ((runClient wire p).sent .start rs)).map PingResult.rttUs = c.rttResults ∧
      Agrees p ((runClient wire p).sent .start rs) (pingSummary wire c) := by
  apply agrees_of_streamAt
  rw [← h]
  exact streamAt_run wire p rs

/-- However a session ends, it ends with one summary, which agrees with everything before it. -/
theorem session_agrees {rs : List Resume} (h : (runClient wire p).run .start rs = .finished) :
    ∃ s, Agrees p ((runClient wire p).sent .start rs) s := by
  obtain ⟨c, -, hagrees⟩ := exists_summary h
  exact ⟨_, hagrees⟩

end Session

/-- Doubles that are all the same. -/
def flatWire : Wire where
  showName _ := "/ndn"
  ratio _ _ := 0
  percent _ _ := 0
  stddev _ _ := 0
  fixed _ _ := "0"

/-- An answer, a Nack, and an error that ends the session. -/
def brokenSession : List Resume :=
  [⟨.timeout, false, 0⟩, ⟨.data [] 40, false, 0⟩, ⟨.timeout, false, 0⟩, ⟨.nacked none 9, false, 0⟩,
    ⟨.timeout, false, 0⟩, ⟨.error "closed", false, 2000⟩]

/-- A session that ends with an error. -/
theorem brokenSession_agrees : ∃ s, Agrees ⟨[], 4, 1000, 4000⟩
    ((runClient flatWire ⟨[], 4, 1000, 4000⟩).sent .start brokenSession) s :=
  session_agrees rfl

end NdnFwd.Ping
