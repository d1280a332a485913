import NdnFwd.Core.Tally
import NdnFwd.Models.Iperf.Client

/-!
# What the client's figures count

A sequence number leaves the table when it is answered, given up or drained, and no
way leads back. `received` counts packets instead. The two agree, and the subtraction
for `lost` with them, exactly when every packet answers a different Interest.
-/

namespace NdnFwd.Iperf

variable {κ ρ : Type*} {u : Setup κ ρ}

/-- The sequence number a packet answers: the one it names, once an Interest for it was sent. -/
def Pipe.answer (u : Setup κ ρ) (s : Pipe κ ρ) (raw : Bytes) : Option Nat :=
  (extractSeq u.decode raw).filter (· < s.nextSeq)

/-- The packets the loop takes at one wakeup, each as what it answers. -/
def Client.heard (u : Setup κ ρ) (s : Client κ ρ) (w : Wakeup) : List (Option Nat) :=
  match s.outcome, w with
  | .running, .packet raw _ => [s.pipe.answer u raw]
  | _, _ => []

/-- The packets of a whole run. -/
def answers (u : Setup κ ρ) (s : Client κ ρ) (ws : List Wakeup) : List (Option Nat) :=
  ((client u).visits s ws).flatMap fun v => v.1.heard u v.2

/-- The figures are exact for a set of answered sequence numbers. -/
def Client.Exact (s : Client κ ρ) (answered : Finset Nat) : Prop :=
  s.figures.received = answered.card ∧ s.figures.received ≤ s.figures.sent ∧
    s.figures.lost = ((Finset.range s.figures.sent).filter fun q =>
      q ∉ s.pipe.timestamps ∧ q ∉ answered).card

instance (s : Client κ ρ) (answered : Finset Nat) : Decidable (s.Exact answered) :=
  inferInstanceAs (Decidable (_ ∧ _))

section Steps

private theorem Client.extends_drain (s : Client κ ρ) (now : Nat) :
    s.pipe.Extends (s.drain now).pipe :=
  Pipe.Extends.of_subset rfl rfl fun _ hk => Table.mem_of_mem_retain hk

private theorem Client.extends_retry (s : Client κ ρ) (r : Readings) :
    s.pipe.Extends (s.retry u r).1.pipe := by
  refine (s.pipe.extends_giveUp (s.pipe.gaveUp u r)).trans ?_
  apply Pipe.extends_resend r
  exact fun x hx => Pipe.mem_of_mem_toResend (List.mem_of_mem_take hx)

private theorem Client.extends_onTimeout (s : Client κ ρ) (r : Readings) :
    s.pipe.Extends (s.onTimeout u r).1.pipe := by
  rw [Client.onTimeout]
  split_ifs
  · exact s.extends_drain r.now
  · exact Pipe.Extends.of_subset rfl rfl fun _ hk => hk
  · exact s.extends_retry r

/-- What one wakeup does to the books, given the packets taken at it. -/
structure Books (s s' : Pipe κ ρ) (heard : List (Option Nat)) : Prop where
  /-- Every packet is counted. -/
  received : s'.received = s.received + heard.length
  /-- Sequence numbers only go up. -/
  nextSeq : s.nextSeq ≤ s'.nextSeq
  /-- An entry was there before and was not answered, or it is fresh. -/
  entries : ∀ k ∈ s'.timestamps, (k ∈ s.timestamps ∧ some k ∉ heard) ∨ s.nextSeq ≤ k
  /-- Entries stay below the next sequence number. -/
  below : Table.KeysBelow s.nextSeq s.timestamps → Table.KeysBelow s'.nextSeq s'.timestamps
  /-- Only what was sent is answered. -/
  heard : ∀ q, some q ∈ heard → q < s.nextSeq

private theorem Books.of_extends {s s' : Pipe κ ρ} (h : s.Extends s') : Books s s' [] where
  received := h.received
  nextSeq := h.nextSeq
  entries k hk := (h.fresh k hk).imp_left fun hk => ⟨hk, List.not_mem_nil⟩
  below := h.below
  heard _ hq := absurd hq List.not_mem_nil

private theorem books_onPacket (s : Pipe κ ρ) (raw : Bytes) (r : Readings) :
    Books s (s.onPacket u raw r).pipe [s.answer u raw] where
  received := by rw [(s.extends_onPacket raw r).received, Pipe.accept_received]; rfl
  nextSeq := (s.accept_nextSeq raw r.elapsed).ge.trans (s.extends_onPacket raw r).nextSeq
  entries k hk := by
    refine ((s.extends_onPacket raw r).fresh k hk).imp (fun hk => ?_) fun hk => ?_
    · obtain ⟨hin, hne⟩ := Pipe.mem_of_mem_accept hk
      refine ⟨hin, fun hq => hne ?_⟩
      have hanswer := List.mem_singleton.mp hq
      exact (Option.filter_eq_some_iff.mp hanswer.symm).1
    · rwa [Pipe.accept_nextSeq] at hk
  below hb := (s.extends_onPacket raw r).below fun k hk => by
    rw [Pipe.accept_nextSeq]
    exact hb k (Pipe.mem_of_mem_accept hk).1
  heard q hq := by
    have hanswer := List.mem_singleton.mp hq
    have hlt := (Option.filter_eq_some_iff.mp hanswer.symm).2
    exact of_decide_eq_true hlt

/-- Every wakeup keeps the books. -/
theorem books_step (s : Client κ ρ) (w : Wakeup) :
    Books s.pipe ((client u).step s w).1.pipe (s.heard u w) := by
  have hidle : Books s.pipe s.pipe [] := Books.of_extends (Pipe.Extends.refl _)
  cases ho : s.outcome with
  | running =>
    cases w with
    | packet raw r =>
      simp only [client, Client.heard, ho]
      exact books_onPacket s.pipe raw r
    | closed =>
      simp only [client, Client.heard, ho]
      exact hidle
    | timeout r =>
      simp only [client, Client.heard, ho]
      exact Books.of_extends (s.extends_onTimeout r)
  | _ =>
    simp only [client, Client.heard, ho]
    exact hidle

end Steps

section Runs

/-- What the books say after a run in which these packets were heard. -/
structure Tallied (s : Pipe κ ρ) (heard : List (Option Nat)) : Prop where
  /-- Every packet was counted. -/
  received : s.received = heard.length
  /-- Every outstanding sequence number was sent. -/
  below : Table.KeysBelow s.nextSeq s.timestamps
  /-- What was answered was sent, and is no longer outstanding. -/
  answered : ∀ q, some q ∈ heard → q < s.nextSeq ∧ q ∉ s.timestamps

/-- A move of the loop keeps the tally. -/
theorem Tallied.step {s s' : Pipe κ ρ} {heard more : List (Option Nat)} (h : Tallied s heard)
    (hb : Books s s' more) : Tallied s' (heard ++ more) where
  received := by rw [hb.received, h.received, List.length_append]
  below := hb.below h.below
  answered q hq := by
    rcases List.mem_append.mp hq with hq | hq
    · obtain ⟨hlt, hout⟩ := h.answered q hq
      refine ⟨hlt.trans_le hb.nextSeq, fun hk => ?_⟩
      rcases hb.entries q hk with ⟨hin, -⟩ | hle
      · exact hout hin
      · exact absurd hlt (Nat.not_lt.mpr hle)
    · have hlt := hb.heard q hq
      refine ⟨hlt.trans_le hb.nextSeq, fun hk => ?_⟩
      rcases hb.entries q hk with ⟨-, hnot⟩ | hle
      · exact hnot hq
      · exact absurd hlt (Nat.not_lt.mpr hle)

private theorem tallied_start (cc : κ) (initialWindow : Nat) (r : Readings) :
    Tallied (Client.start u cc initialWindow r).1.pipe [] :=
  have h := (Pipe.empty u cc).extends_sendFresh (u := u) r
    (min initialWindow (u.congestion.floorWindow cc)) 0
  { received := h.received
    below := h.below (Table.keysBelow_empty 0)
    answered := fun _ hq => absurd hq List.not_mem_nil }

private theorem answers_snoc (s : Client κ ρ) (ws : List Wakeup) (w : Wakeup) :
    answers u s (ws ++ [w]) = answers u s ws ++ ((client u).run s ws).heard u w := by
  rw [answers, Machine.visits_append, List.flatMap_append]
  simp only [answers, Machine.visits, List.flatMap_singleton]

private theorem tallied_run {s : Client κ ρ} (h : Tallied s.pipe []) (ws : List Wakeup) :
    Tallied ((client u).run s ws).pipe (answers u s ws) := by
  induction ws using List.reverseRecOn with
  | nil => exact h
  | append_singleton ws w ih =>
    have hlast := ih.step (books_step (u := u) ((client u).run s ws) w)
    rwa [Machine.run_snoc, answers_snoc]

private theorem Tallied.exact_iff {s : Client κ ρ} {heard : List (Option Nat)}
    (h : Tallied s.pipe heard) :
    s.Exact (Tally.named heard) ↔ ∃ qs : List Nat, heard = qs.map some ∧ qs.Nodup := by
  rw [← Tally.card_named_eq_iff]
  have hnamed : ∀ q ∈ Tally.named heard, q < s.pipe.nextSeq ∧ q ∉ s.pipe.timestamps :=
    fun q hq => h.answered q (Tally.mem_named.mp hq)
  constructor
  · rintro ⟨hreceived, -, -⟩
    exact hreceived.symm.trans h.received
  · intro hcard
    have hreceived : s.pipe.received = (Tally.named heard).card := h.received.trans hcard.symm
    refine ⟨hreceived, ?_, ?_⟩
    · show s.pipe.received ≤ s.pipe.nextSeq
      rw [hreceived]
      exact Tally.card_le_of_below fun q hq => (hnamed q hq).1
    · show s.pipe.nextSeq - s.pipe.timestamps.size - s.pipe.received = _
      rw [hreceived, ← Table.card_keySet]
      refine (Tally.card_rest ?_ ?_).symm.trans ?_
      · exact fun q hq => h.below q (Table.mem_keySet.mp hq)
      · exact fun q hq => ⟨(hnamed q hq).1, fun hk => (hnamed q hq).2 (Table.mem_keySet.mp hk)⟩
      · simp only [Table.mem_keySet]
        rfl

/-- At every point of every run the figures are exact if and only if every packet so far
answered an Interest that was sent, and no two answered the same one. -/
theorem figures_exact_iff (u : Setup κ ρ) (cc : κ) (initialWindow : Nat) (r : Readings)
    (ws : List Wakeup) :
    ((client u).run (Client.start u cc initialWindow r).1 ws).Exact
        (Tally.named (answers u (Client.start u cc initialWindow r).1 ws)) ↔
      ∃ qs : List Nat, answers u (Client.start u cc initialWindow r).1 ws = qs.map some ∧
        qs.Nodup :=
  (tallied_run (tallied_start cc initialWindow r) ws).exact_iff

end Runs

section Duplicate

/-- Data `/t/f/0`. -/
def firstAnswer : Bytes :=
  [0x06, 0x14, 0x07, 0x09, 0x08, 0x01, 0x74, 0x08, 0x01, 0x66, 0x08, 0x01, 0x30,
    0x15, 0x00, 0x16, 0x03, 0x1B, 0x01, 0x00, 0x17, 0x00]

/-- A test of one second under `/t/f`. -/
def oneSecond : Setup Nat Nat where
  decode raw :=
    if raw = firstAnswer then
      some ⟨[.generic [0x74], .generic [0x66], .generic [0x30]], none, some []⟩
    else none
  congestion := Congestion.fixed
  rtt := RttFilter.whole
  flowPrefix := [.generic [0x74], .generic [0x66]]
  lifetime := 4000
  deadline := 1000000

/-- The Interest `0` is sent twice and answered twice. The Interest `1` is never answered, but
the second packet stands in for it. -/
theorem not_exact_answered_twice :
    let first := (Client.start oneSecond 1 1 (Readings.instant 0)).1
    let ws : List Wakeup := [.timeout (.instant 100000), .timeout (.instant 200000),
      .timeout (.instant 300000), .timeout (.instant 400000), .timeout (.instant 500000),
      .timeout (.instant 600000), .timeout (.instant 700000), .packet firstAnswer (.instant 760000),
      .packet firstAnswer (.instant 760000), .timeout (.instant 860000), .timeout (.instant 960000),
      .timeout (.instant 1060000), .timeout (.instant 1560000)]
    let last := (client oneSecond).run first ws
    let answered := Tally.named (answers oneSecond first ws)
    (last.report.map fun f => (f.sent, f.received, f.lost)) = some (2, 2, 0) ∧
      answered = {0} ∧ ¬last.Exact answered := by
  decide

end Duplicate

end NdnFwd.Iperf
