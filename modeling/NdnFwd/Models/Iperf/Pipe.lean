import NdnFwd.Core.Digits
import NdnFwd.Core.Table
import NdnFwd.Core.Utf8
import NdnFwd.Models.Packet.Name

/-!
# The pipeline of an iperf consumer

The client of a forward test and the server of a reverse test run almost the same
loop. What they share is here: the table of outstanding Interests, its counters, and
the operations on them. The congestion controller and the floating-point RTT filter
are parameters.
-/

namespace NdnFwd.Iperf

/-- The congestion controller, as far as the loops read it. -/
structure Congestion (κ : Type*) where
  /-- `cc.window().floor() as usize`. -/
  floorWindow : κ → Nat
  /-- `(cc.window() / 2.0).max(2.0) as usize`. -/
  maxRetx : κ → Nat
  /-- `on_data`. -/
  onData : κ → κ
  /-- `on_timeout`. -/
  onTimeout : κ → κ

/-- The smoothed round-trip time, in microseconds. -/
structure RttFilter (ρ : Type*) where
  /-- `srtt_us` before any sample. -/
  initial : ρ
  /-- `srtt_us * 0.875 + rtt * 0.125`. -/
  update : ρ → Nat → ρ
  /-- `(srtt_us * 3.0) as u64`. -/
  tripled : ρ → Nat

/-- A controller that keeps its window. -/
def Congestion.fixed : Congestion Nat := ⟨id, fun k => max (k / 2) 2, id, id⟩

/-- The filter over whole microseconds. -/
def RttFilter.whole : RttFilter Nat := ⟨50000, fun srtt rtt => (7 * srtt + rtt) / 8, fun s => 3 * s⟩

/-- The variables of the loop. Times are in microseconds. -/
structure Pipe (κ ρ : Type*) where
  /-- Outstanding sequence numbers: when each was sent last, and how often it was sent again. -/
  timestamps : Table Nat (Nat × Nat)
  /-- Next fresh sequence number. -/
  nextSeq : Nat
  /-- Bytes of all packets received. -/
  totalBytes : Nat
  /-- Packets received. -/
  received : Nat
  /-- Number of outstanding Interests, as the loop counts it. -/
  inFlight : Nat
  /-- Round-trip times, oldest first. -/
  rtts : List Nat
  /-- Smoothed round-trip time. -/
  srtt : ρ
  /-- Congestion controller. -/
  cc : κ
  /-- Whether the loop has seen the deadline pass. -/
  pastDeadline : Bool

/-- What the loop does not change. -/
structure Setup (κ ρ : Type*) where
  /-- `Data::decode`. -/
  decode : Bytes → Option Data
  /-- Congestion controller. -/
  congestion : Congestion κ
  /-- RTT filter. -/
  rtt : RttFilter ρ
  /-- Prefix of the Interests. -/
  flowPrefix : Name
  /-- Interest lifetime in milliseconds. -/
  lifetime : Nat
  /-- When the test ends. -/
  deadline : Nat

/-- What the loop reads from outside while it handles one event. -/
structure Readings where
  /-- Clock at `t0.elapsed()`. -/
  elapsed : Nat
  /-- Clock at the deadline check. -/
  check : Nat
  /-- Clock at the search for stale Interests. -/
  now : Nat
  /-- Clock at the deadline check after the event, which only the reverse loop makes. -/
  recheck : Nat
  /-- Clock after the `i`th Interest sent. -/
  stamp : Nat → Nat
  /-- Whether the `i`th send succeeds. -/
  sendOk : Nat → Bool
  /-- Iteration order of the hash map. -/
  order : IterOrder (Nat × Nat × Nat)

/-- Every clock reads `t`, and every send succeeds. -/
def Readings.instant (t : Nat) : Readings :=
  ⟨t, t, t, t, fun _ => t, fun _ => true, IterOrder.listed _⟩

/-- What wakes a loop up. -/
inductive Wakeup
  /-- `Ok(Some(data_bytes))`. -/
  | packet (raw : Bytes) (r : Readings)
  /-- `Ok(None)`. -/
  | closed
  /-- `Err(_)`: nothing came in time. -/
  | timeout (r : Readings)

/-- How the loop ends. -/
inductive Outcome
  /-- It has not. -/
  | running
  /-- By `break`; the results are reported. -/
  | done
  /-- By a failed send; nothing is reported. -/
  | failed
  deriving DecidableEq, Repr

/-- After a row of sends: the pipeline, the Interests sent, and whether all sends succeeded. -/
structure Sends (κ ρ : Type*) where
  /-- The pipeline. -/
  pipe : Pipe κ ρ
  /-- The Interests. -/
  interests : List Interest
  /-- Whether every send succeeded. -/
  ok : Bool

/-- Whether a row of sends ended in an error. -/
def Sends.outcome {κ ρ : Type*} (a : Sends κ ρ) : Outcome := if a.ok then .running else .failed

/-- `MAX_RETRIES`. -/
def maxRetries : Nat := 3

/-- `extract_seq`. -/
def extractSeq (decode : Bytes → Option Data) (raw : Bytes) : Option Nat :=
  (decode raw).bind fun data =>
    data.name.getLast?.bind fun last =>
      if Utf8.isText last.value then Digits.parse 64 last.value else none

section Operations

variable {κ ρ : Type*} (u : Setup κ ρ)

/-- The name of the Interest for a sequence number. -/
def seqName (seq : Nat) : Name := u.flowPrefix ++ [.generic (Digits.decimal seq)]

/-- The Interest for a sequence number. -/
def seqInterest (seq : Nat) : Interest := ⟨seqName u seq, false, some u.lifetime⟩

/-- The state before the first Interest. -/
def Pipe.empty (cc : κ) : Pipe κ ρ := ⟨∅, 0, 0, 0, 0, [], u.rtt.initial, cc, false⟩

/-- The entry a packet answers: its sequence number and when that was sent last. -/
def Pipe.hit (s : Pipe κ ρ) (raw : Bytes) : Option (Nat × Nat) :=
  (extractSeq u.decode raw).bind fun seq =>
    (s.timestamps.lookup seq).map fun e => (seq, e.1)

/-- The bookkeeping for one received packet. -/
def Pipe.accept (s : Pipe κ ρ) (raw : Bytes) (elapsed : Nat) : Pipe κ ρ :=
  let s := { s with
    totalBytes := s.totalBytes + raw.length
    received := s.received + 1
    cc := u.congestion.onData s.cc }
  match s.hit u raw with
  | some (seq, t0) =>
    { s with
      timestamps := s.timestamps.erase seq
      inFlight := s.inFlight - 1
      rtts := s.rtts ++ [elapsed - t0]
      srtt := u.rtt.update s.srtt (elapsed - t0) }
  | none => s

/-- Book a fresh Interest that was sent. -/
def Pipe.issue (s : Pipe κ ρ) (sentAt : Nat) : Pipe κ ρ :=
  { s with
    timestamps := s.timestamps.insert s.nextSeq (sentAt, 0)
    nextSeq := s.nextSeq + 1
    inFlight := s.inFlight + 1 }

/-- Send `n` fresh Interests, the first of them being the `i`th send of this event. -/
def Pipe.sendFresh (r : Readings) : Nat → Nat → Pipe κ ρ → Sends κ ρ
  | 0, _, s => ⟨s, [], true⟩
  | n + 1, i, s =>
    if r.sendOk i then
      let rest := sendFresh r n (i + 1) (s.issue (r.stamp i))
      ⟨rest.pipe, seqInterest u s.nextSeq :: rest.interests, rest.ok⟩
    else ⟨s, [], false⟩

/-- `while in_flight < allowed`. -/
def Pipe.fill (r : Readings) (i : Nat) (s : Pipe κ ρ) : Sends κ ρ :=
  s.sendFresh u r (u.congestion.floorWindow s.cc - s.inFlight) i

/-- Handle one received packet, up to the test that may end the loop. -/
def Pipe.onPacket (s : Pipe κ ρ) (raw : Bytes) (r : Readings) : Sends κ ρ :=
  let s := s.accept u raw r.elapsed
  if s.pastDeadline then ⟨s, [], true⟩
  else if r.check < u.deadline then s.fill u r 0
  else ⟨{ s with pastDeadline := true }, [], true⟩

/-- `past_deadline && timestamps.is_empty()`. -/
def Pipe.isDrained (s : Pipe κ ρ) : Bool := s.pastDeadline && s.timestamps.size = 0

/-- The retransmission timeout. -/
def Pipe.rto (s : Pipe κ ρ) : Nat := max (u.rtt.tripled s.srtt) 200000

/-- An entry sent at least one timeout ago. -/
def Pipe.isStale (s : Pipe κ ρ) (now : Nat) (e : Nat × Nat × Nat) : Bool := s.rto u ≤ now - e.2.1

/-- An entry that is stale and out of retries. -/
def Pipe.isLost (s : Pipe κ ρ) (now : Nat) (e : Nat × Nat × Nat) : Bool :=
  s.isStale u now e && maxRetries ≤ e.2.2

/-- The stale sequence numbers that are given up. -/
def Pipe.gaveUp (s : Pipe κ ρ) (r : Readings) : List Nat :=
  ((r.order.arrange s.timestamps.pairs).filter (s.isLost u r.now)).map Prod.fst

/-- The stale sequence numbers that are sent again, with their retries so far. -/
def Pipe.toResend (s : Pipe κ ρ) (r : Readings) : List (Nat × Nat) :=
  ((r.order.arrange s.timestamps.pairs).filter fun e =>
    s.isStale u r.now e && !(maxRetries ≤ e.2.2)).map fun e => (e.1, e.2.2)

/-- Drop the sequence numbers that are given up. -/
def Pipe.giveUp (s : Pipe κ ρ) (seqs : List Nat) : Pipe κ ρ :=
  { s with
    timestamps := s.timestamps.eraseAll seqs
    inFlight := s.inFlight - seqs.length }

/-- Book an Interest that was sent again. -/
def Pipe.reissue (s : Pipe κ ρ) (seq retries sentAt : Nat) : Pipe κ ρ :=
  { s with timestamps := s.timestamps.insert seq (sentAt, retries + 1) }

/-- Send Interests again, the first of them being the `i`th send of this event. -/
def Pipe.sendAgain (r : Readings) : List (Nat × Nat) → Nat → Pipe κ ρ → Sends κ ρ
  | [], _, s => ⟨s, [], true⟩
  | (seq, retries) :: rest, i, s =>
    if r.sendOk i then
      let tail := sendAgain r rest (i + 1) (s.reissue seq retries (r.stamp i))
      ⟨tail.pipe, seqInterest u seq :: tail.interests, tail.ok⟩
    else ⟨s, [], false⟩

/-- Tell the congestion controller about a timeout. -/
def Pipe.backOff (s : Pipe κ ρ) : Pipe κ ρ := { s with cc := u.congestion.onTimeout s.cc }

/-- Back off and send again, unless there is nothing to send. -/
def Pipe.resend (s : Pipe κ ρ) (r : Readings) (again : List (Nat × Nat)) : Sends κ ρ :=
  if again.isEmpty then ⟨s, [], true⟩ else (s.backOff u).sendAgain u r again 0

end Operations

section Laws

variable {κ ρ : Type*} {u : Setup κ ρ}

/-- What every operation but `accept` does: it counts no packet, and whatever it adds to the
table is a fresh sequence number. -/
structure Pipe.Extends (s s' : Pipe κ ρ) : Prop where
  /-- Sequence numbers only go up. -/
  nextSeq : s.nextSeq ≤ s'.nextSeq
  /-- No packet is counted. -/
  received : s'.received = s.received
  /-- New entries are fresh. -/
  fresh : ∀ k ∈ s'.timestamps, k ∈ s.timestamps ∨ s.nextSeq ≤ k
  /-- Entries stay below the next sequence number. -/
  below : Table.KeysBelow s.nextSeq s.timestamps → Table.KeysBelow s'.nextSeq s'.timestamps

/-- Nothing happens. -/
theorem Pipe.Extends.refl (s : Pipe κ ρ) : s.Extends s := ⟨le_rfl, rfl, fun _ hk => Or.inl hk, id⟩

/-- One operation follows another. -/
theorem Pipe.Extends.trans {s s' s'' : Pipe κ ρ} (h : s.Extends s') (h' : s'.Extends s'') :
    s.Extends s'' where
  nextSeq := h.nextSeq.trans h'.nextSeq
  received := h'.received.trans h.received
  fresh k hk := by
    rcases h'.fresh k hk with hk | hle
    · exact h.fresh k hk
    · exact Or.inr (h.nextSeq.trans hle)
  below hb := h'.below (h.below hb)

/-- An operation that only shrinks the table. -/
theorem Pipe.Extends.of_subset {s s' : Pipe κ ρ} (hn : s'.nextSeq = s.nextSeq)
    (hr : s'.received = s.received) (ht : ∀ k ∈ s'.timestamps, k ∈ s.timestamps) :
    s.Extends s' :=
  ⟨hn.ge, hr, fun k hk => Or.inl (ht k hk), fun hb k hk => hn ▸ hb k (ht k hk)⟩

private theorem Pipe.extends_issue (s : Pipe κ ρ) (sentAt : Nat) : s.Extends (s.issue sentAt) where
  nextSeq := Nat.le_succ _
  received := rfl
  fresh k hk := by
    rcases (AList.mem_insert _).mp hk with rfl | hk
    · exact Or.inr le_rfl
    · exact Or.inl hk
  below hb := hb.insert _

/-- A row of fresh Interests is sent. -/
theorem Pipe.extends_sendFresh (r : Readings) (n i : Nat) (s : Pipe κ ρ) :
    s.Extends (s.sendFresh u r n i).pipe := by
  induction n generalizing i s with
  | zero => exact Extends.refl s
  | succ n ih =>
    rw [Pipe.sendFresh]
    split_ifs
    · exact (s.extends_issue _).trans (ih _ _)
    · exact Extends.refl s

private theorem Pipe.extends_fill (r : Readings) (i : Nat) (s : Pipe κ ρ) :
    s.Extends (s.fill u r i).pipe := s.extends_sendFresh r _ i

/-- Sequence numbers are given up. -/
theorem Pipe.extends_giveUp (s : Pipe κ ρ) (seqs : List Nat) : s.Extends (s.giveUp seqs) :=
  Extends.of_subset rfl rfl fun _ hk => Table.mem_of_mem_eraseAll hk

private theorem Pipe.extends_reissue {s : Pipe κ ρ} {seq : Nat} (h : seq ∈ s.timestamps)
    (retries sentAt : Nat) : s.Extends (s.reissue seq retries sentAt) := by
  refine Extends.of_subset rfl rfl fun k hk => ?_
  rcases (AList.mem_insert _).mp hk with rfl | hk
  · exact h
  · exact hk

private theorem Pipe.extends_sendAgain (r : Readings) {again : List (Nat × Nat)} (i : Nat)
    {s : Pipe κ ρ}
    (h : ∀ x ∈ again, x.1 ∈ s.timestamps) : s.Extends (s.sendAgain u r again i).pipe := by
  induction again generalizing i s with
  | nil => exact Extends.refl s
  | cons x again ih =>
    rw [Pipe.sendAgain]
    split_ifs
    · refine (extends_reissue (h x (List.mem_cons_self ..)) _ _).trans (ih _ fun y hy => ?_)
      exact (AList.mem_insert _).mpr (Or.inr (h y (List.mem_cons_of_mem x hy)))
    · exact Extends.refl s

/-- Outstanding sequence numbers are sent again. -/
theorem Pipe.extends_resend (r : Readings) {again : List (Nat × Nat)} {s : Pipe κ ρ}
    (h : ∀ x ∈ again, x.1 ∈ s.timestamps) : s.Extends (s.resend u r again).pipe := by
  rw [Pipe.resend]
  split_ifs
  · exact Extends.refl s
  · have hback : s.Extends (s.backOff u) := Extends.of_subset rfl rfl fun _ hk => hk
    exact hback.trans (extends_sendAgain r 0 h)

/-- A packet is handled, once it is counted. -/
theorem Pipe.extends_onPacket (s : Pipe κ ρ) (raw : Bytes) (r : Readings) :
    (s.accept u raw r.elapsed).Extends (s.onPacket u raw r).pipe := by
  simp only [Pipe.onPacket]
  split_ifs
  · exact Extends.refl _
  · exact Pipe.extends_fill r 0 _
  · exact Extends.of_subset rfl rfl fun _ hk => hk

/-- The sequence numbers to send again are outstanding and not given up. -/
theorem Pipe.mem_of_mem_toResend {s : Pipe κ ρ} {r : Readings} {x : Nat × Nat}
    (h : x ∈ s.toResend u r) : x.1 ∈ (s.giveUp (s.gaveUp u r)).timestamps := by
  obtain ⟨e, he, rfl⟩ := List.mem_map.mp h
  obtain ⟨hin, htest⟩ := List.mem_filter.mp he
  have hpair := (r.order.perm s.timestamps.pairs).mem_iff.mp hin
  refine Table.mem_eraseAll.mpr ⟨Table.mem_of_mem_pairs hpair, fun hgone => ?_⟩
  obtain ⟨e', he', hk⟩ := List.mem_map.mp hgone
  obtain ⟨hin', hlost⟩ := List.mem_filter.mp he'
  have hpair' := (r.order.perm s.timestamps.pairs).mem_iff.mp hin'
  obtain rfl := Table.eq_of_mem_pairs hpair' hpair hk
  simp only [Pipe.isLost, Bool.and_eq_true] at hlost
  simp only [Bool.and_eq_true, Bool.not_eq_true', hlost.2, Bool.true_eq_false, and_false] at htest

/-- The loop counts its outstanding Interests correctly, and numbers them below `nextSeq`. -/
structure Pipe.Counted (s : Pipe κ ρ) : Prop where
  /-- Every outstanding sequence number has been sent. -/
  below : Table.KeysBelow s.nextSeq s.timestamps
  /-- `in_flight` is the size of the table. -/
  counted : s.inFlight = s.timestamps.size

/-- Nothing is outstanding at first. -/
theorem Pipe.counted_empty (cc : κ) : (Pipe.empty u cc).Counted :=
  ⟨Table.keysBelow_empty 0, rfl⟩

/-- A packet takes at most its own sequence number out of the table. -/
theorem Pipe.accept_cases (s : Pipe κ ρ) (raw : Bytes) (elapsed : Nat) :
    (∃ seq, extractSeq u.decode raw = some seq ∧ seq ∈ s.timestamps ∧
        (s.accept u raw elapsed).timestamps = s.timestamps.erase seq ∧
        (s.accept u raw elapsed).inFlight = s.inFlight - 1) ∨
      ((∀ seq, extractSeq u.decode raw = some seq → seq ∉ s.timestamps) ∧
        (s.accept u raw elapsed).timestamps = s.timestamps ∧
        (s.accept u raw elapsed).inFlight = s.inFlight) := by
  simp only [Pipe.accept, Pipe.hit]
  cases he : extractSeq u.decode raw with
  | none => exact Or.inr ⟨fun seq h => absurd h (Option.some_ne_none seq).symm, rfl, rfl⟩
  | some seq =>
    cases hl : s.timestamps.lookup seq with
    | none =>
      refine Or.inr ⟨fun seq' h => ?_, ?_, ?_⟩
      · rw [← Option.some.inj h]
        exact AList.lookup_eq_none.mp hl
      · simp [hl]
      · simp [hl]
    | some e =>
      refine Or.inl ⟨seq, rfl, AList.lookup_isSome.mp (by rw [hl]; rfl), ?_, ?_⟩
      · simp [hl]
      · simp [hl]

@[simp] theorem Pipe.accept_nextSeq (s : Pipe κ ρ) (raw : Bytes) (elapsed : Nat) :
    (s.accept u raw elapsed).nextSeq = s.nextSeq := by
  simp only [Pipe.accept]
  split <;> rfl

@[simp] theorem Pipe.accept_received (s : Pipe κ ρ) (raw : Bytes) (elapsed : Nat) :
    (s.accept u raw elapsed).received = s.received + 1 := by
  simp only [Pipe.accept]
  split <;> rfl

@[simp] theorem Pipe.accept_pastDeadline (s : Pipe κ ρ) (raw : Bytes) (elapsed : Nat) :
    (s.accept u raw elapsed).pastDeadline = s.pastDeadline := by
  simp only [Pipe.accept]
  split <;> rfl

/-- A packet takes at most its own sequence number off the table. -/
theorem Pipe.mem_of_mem_accept {s : Pipe κ ρ} {raw : Bytes} {elapsed k : Nat}
    (h : k ∈ (s.accept u raw elapsed).timestamps) :
    k ∈ s.timestamps ∧ extractSeq u.decode raw ≠ some k := by
  obtain ⟨seq, he, -, ht, -⟩ | ⟨hnone, ht, -⟩ := s.accept_cases (u := u) raw elapsed
  · rw [ht, AList.mem_erase] at h
    refine ⟨h.2, fun hk => h.1 ?_⟩
    rw [he] at hk
    exact (Option.some.inj hk).symm
  · rw [ht] at h
    exact ⟨h, fun hk => hnone k hk h⟩

/-- A packet is counted. -/
theorem Pipe.Counted.accept {s : Pipe κ ρ} (h : s.Counted) (raw : Bytes) (elapsed : Nat) :
    (s.accept u raw elapsed).Counted where
  below k hk := by
    rw [accept_nextSeq]
    exact h.below k (mem_of_mem_accept hk).1
  counted := by
    obtain ⟨seq, -, hin, ht, hf⟩ | ⟨-, ht, hf⟩ := s.accept_cases (u := u) raw elapsed
    · rw [hf, ht, Table.size_erase hin, h.counted]
    · rw [hf, ht, h.counted]

/-- A fresh Interest is booked. -/
theorem Pipe.Counted.issue {s : Pipe κ ρ} (h : s.Counted) (sentAt : Nat) :
    (s.issue sentAt).Counted where
  below := h.below.insert _
  counted := by
    have hnew : s.nextSeq ∉ s.timestamps := fun hk => Nat.lt_irrefl _ (h.below _ hk)
    rw [Pipe.issue, Table.size_insert_of_notMem hnew, h.counted]

/-- A row of fresh Interests is booked. -/
theorem Pipe.Counted.sendFresh {s : Pipe κ ρ} (h : s.Counted) (r : Readings) (n i : Nat) :
    (s.sendFresh u r n i).pipe.Counted := by
  induction n generalizing i s with
  | zero => exact h
  | succ n ih =>
    rw [Pipe.sendFresh]
    split_ifs
    · exact ih (h.issue _) _
    · exact h

/-- When no send fails, every fresh Interest is booked. -/
theorem Pipe.inFlight_sendFresh {s : Pipe κ ρ} {r : Readings} {n i : Nat}
    (h : (s.sendFresh u r n i).ok = true) :
    (s.sendFresh u r n i).pipe.inFlight = s.inFlight + n := by
  induction n generalizing i s with
  | zero => rfl
  | succ n ih =>
    rw [Pipe.sendFresh] at h ⊢
    split_ifs at h ⊢
    · have hissue : (s.issue (r.stamp i)).inFlight = s.inFlight + 1 := rfl
      rw [ih h, hissue, Nat.add_assoc, Nat.add_comm 1]

/-- A fill that succeeds brings the count up to the window. -/
theorem Pipe.le_inFlight_fill {s : Pipe κ ρ} {r : Readings} {i : Nat}
    (h : (s.fill u r i).ok = true) :
    u.congestion.floorWindow s.cc ≤ (s.fill u r i).pipe.inFlight := by
  rw [Pipe.fill, inFlight_sendFresh h]
  omega

@[simp] theorem Pipe.cc_sendFresh (r : Readings) (n i : Nat) (s : Pipe κ ρ) :
    (s.sendFresh u r n i).pipe.cc = s.cc := by
  induction n generalizing i s with
  | zero => rfl
  | succ n ih =>
    rw [Pipe.sendFresh]
    split_ifs
    · exact ih (i + 1) (s.issue (r.stamp i))
    · rfl

/-- A packet is handled. -/
theorem Pipe.Counted.onPacket {s : Pipe κ ρ} (h : s.Counted) (raw : Bytes) (r : Readings) :
    (s.onPacket u raw r).pipe.Counted := by
  have haccept := h.accept (u := u) raw r.elapsed
  simp only [Pipe.onPacket]
  split_ifs
  · exact haccept
  · exact haccept.sendFresh r _ 0
  · exact ⟨haccept.below, haccept.counted⟩

/-- Lost Interests are given up. -/
theorem Pipe.Counted.giveUp {s : Pipe κ ρ} (h : s.Counted) (r : Readings) :
    (s.giveUp (s.gaveUp u r)).Counted where
  below k hk := h.below k (Table.mem_of_mem_eraseAll hk)
  counted := by
    have hperm := ((r.order.perm s.timestamps.pairs).filter (s.isLost u r.now)).map Prod.fst
    have hsize := Table.size_eraseAll s.timestamps (s.isLost u r.now) hperm
    show s.inFlight - (s.gaveUp u r).length = _
    rw [h.counted, ← hsize]
    exact Nat.add_sub_cancel _ _

/-- An Interest that was sent again is booked. -/
theorem Pipe.Counted.reissue {s : Pipe κ ρ} (h : s.Counted) {seq : Nat} (hin : seq ∈ s.timestamps)
    (retries sentAt : Nat) : (s.reissue seq retries sentAt).Counted where
  below k hk := by
    rcases (AList.mem_insert _).mp hk with rfl | hk
    · exact h.below _ hin
    · exact h.below k hk
  counted := by rw [Pipe.reissue, Table.size_insert_of_mem hin, h.counted]

/-- A row of them is booked. -/
theorem Pipe.Counted.sendAgain {s : Pipe κ ρ} (h : s.Counted) (r : Readings)
    {again : List (Nat × Nat)} (i : Nat) (hin : ∀ x ∈ again, x.1 ∈ s.timestamps) :
    (s.sendAgain u r again i).pipe.Counted := by
  induction again generalizing i s with
  | nil => exact h
  | cons x again ih =>
    rw [Pipe.sendAgain]
    split_ifs
    · refine ih (h.reissue (hin x (List.mem_cons_self ..)) _ _) _ fun y hy => ?_
      exact (AList.mem_insert _).mpr (Or.inr (hin y (List.mem_cons_of_mem x hy)))
    · exact h

/-- Stale Interests are sent again. -/
theorem Pipe.Counted.resend {s : Pipe κ ρ} (h : s.Counted) (r : Readings)
    {again : List (Nat × Nat)} (hin : ∀ x ∈ again, x.1 ∈ s.timestamps) :
    (s.resend u r again).pipe.Counted := by
  rw [Pipe.resend]
  split_ifs
  · exact h
  · exact Counted.sendAgain (s := s.backOff u) ⟨h.below, h.counted⟩ r 0 hin

/-- Giving up empties the table exactly when every outstanding Interest is lost. -/
theorem Pipe.giveUp_empty_iff {s : Pipe κ ρ} {r : Readings} :
    (s.giveUp (s.gaveUp u r)).timestamps.size = 0 ↔
      ∀ e ∈ s.timestamps.pairs, s.isLost u r.now e = true := by
  have hperm := ((r.order.perm s.timestamps.pairs).filter (s.isLost u r.now)).map Prod.fst
  have hvalues := Table.values_eraseAll s.timestamps (s.isLost u r.now) hperm
  rw [← Table.length_values]
  show (Table.values (s.timestamps.eraseAll _)).length = 0 ↔ _
  rw [Pipe.gaveUp, hvalues, List.length_map, List.length_eq_zero_iff, List.filter_eq_nil_iff]
  simp

end Laws

end NdnFwd.Iperf
