import NdnFwd.Core.Attempts
import NdnFwd.Models.Iperf.Reverse
import NdnFwd.Models.Iperf.Silence

/-!
# How often an Interest is sent

The table of outstanding Interests is a sheet of numbered requests with their retries. Every
operation of the two loops is a move of that sheet: an answer or a give-up drops numbers, a
retransmission sends numbers again, a fill sends fresh ones.
-/

namespace NdnFwd.Iperf

open Attempts

variable {κ ρ : Type*} {u : Setup κ ρ}

/-- The table of outstanding Interests as a sheet. -/
def Pipe.sheet (s : Pipe κ ρ) : Sheet := ⟨s.nextSeq, fun k => (s.timestamps.lookup k).map Prod.snd⟩

/-- The Interests are the ones that a move of the sheet sends. -/
def Pipe.Posts (u : Setup κ ρ) (s s' : Pipe κ ρ) (interests : List Interest) : Prop :=
  ∃ again fresh, Moves maxRetries s.sheet s'.sheet again fresh ∧
    interests = (numbers s.sheet again fresh).map (seqInterest u)

/-- No entry is new or changed. -/
structure Pipe.Drops (s s' : Pipe κ ρ) : Prop where
  nextSeq : s'.nextSeq = s.nextSeq
  entries : ∀ k e, s'.timestamps.lookup k = some e → s.timestamps.lookup k = some e

variable {s s' s'' : Pipe κ ρ} {interests : List Interest}

/-- The sheet shows the retries of the table. -/
theorem Pipe.sheet_retries_eq_some {k n : Nat} :
    s.sheet.retries k = some n ↔ ∃ t, s.timestamps.lookup k = some (t, n) := by
  simp only [sheet, Option.map_eq_some_iff, Prod.exists, exists_eq_right]

private theorem Pipe.Counted.lt_of_retries (h : s.Counted) {k n : Nat}
    (hk : s.sheet.retries k = some n) :
    k < s.nextSeq := by
  obtain ⟨t, ht⟩ := sheet_retries_eq_some.mp hk
  exact h.below k (AList.lookup_isSome.mp (by rw [ht]; rfl))

section Drops

/-- Nothing is dropped. -/
theorem Pipe.drops_refl (s : Pipe κ ρ) : s.Drops s := ⟨rfl, fun _ _ h => h⟩

private theorem Pipe.drops_accept (s : Pipe κ ρ) (raw : Bytes) (elapsed : Nat) :
    s.Drops (s.accept u raw elapsed) := by
  refine ⟨s.accept_nextSeq raw elapsed, fun k e he => ?_⟩
  obtain ⟨seq, -, -, ht, -⟩ | ⟨-, ht, -⟩ := s.accept_cases (u := u) raw elapsed
  · rw [ht] at he
    have hne : k ≠ seq := by
      rintro rfl
      rw [AList.lookup_erase] at he
      cases he
    rwa [AList.lookup_erase_ne hne] at he
  · rwa [ht] at he

private theorem Pipe.drops_giveUp (s : Pipe κ ρ) (seqs : List Nat) : s.Drops (s.giveUp seqs) :=
  ⟨rfl, fun _ _ he => Table.lookup_of_lookup_eraseAll he⟩

/-- A drop sends nothing. -/
theorem Pipe.Drops.moves (h : s.Drops s') (hs : s.Counted) :
    Moves maxRetries s.sheet s'.sheet [] 0 := by
  refine Moves.of_drop (fun k n => hs.lt_of_retries) h.nextSeq fun k n hn => ?_
  obtain ⟨t, ht⟩ := sheet_retries_eq_some.mp hn
  exact sheet_retries_eq_some.mpr ⟨t, h.entries k _ ht⟩

/-- A drop sends nothing. -/
theorem Pipe.Drops.posts (h : s.Drops s') (hs : s.Counted) : s.Posts u s' [] :=
  ⟨[], 0, h.moves hs, rfl⟩

/-- What is sent after entries were dropped. -/
theorem Pipe.Drops.posts_trans (h : s.Drops s') (hs : s.Counted) (hp : s'.Posts u s'' interests) :
    s.Posts u s'' interests := by
  obtain ⟨again, fresh, hm, rfl⟩ := hp
  have hnext : s.sheet.next = s'.sheet.next := h.nextSeq.symm
  have hmove := (h.moves hs).trans hm fun k hk =>
    ⟨hnext ▸ (hm.repeated k hk).1, List.not_mem_nil⟩
  rw [List.nil_append, Nat.zero_add] at hmove
  exact ⟨again, fresh, hmove, by rw [numbers, numbers, hnext]⟩

end Drops

section Fresh

private theorem Pipe.moves_issue (h : s.Counted) (sentAt : Nat) :
    Moves maxRetries s.sheet (s.issue sentAt).sheet [] 1 where
  next := rfl
  nodup := List.nodup_nil
  repeated _ hk := absurd hk List.not_mem_nil
  old k hlt _ n hn := by
    have hne : k ≠ s.nextSeq := Nat.ne_of_lt hlt
    simp only [sheet, issue, AList.lookup_insert_ne hne] at hn
    exact hn
  new k hle n hn := by
    by_cases hk : k = s.nextSeq
    · subst hk
      simp only [sheet, issue, AList.lookup_insert, Option.map_some, Option.some.injEq] at hn
      exact ⟨hn.symm, Nat.lt_succ_self _⟩
    · simp only [sheet, issue, AList.lookup_insert_ne hk] at hn
      exact absurd (h.lt_of_retries hn) (Nat.not_lt.mpr hle)

/-- A row of fresh Interests. -/
theorem Pipe.moves_sendFresh (h : s.Counted) (r : Readings) (n i : Nat) :
    ∃ fresh, Moves maxRetries s.sheet (s.sendFresh u r n i).pipe.sheet [] fresh ∧
      (s.sendFresh u r n i).interests = (List.range' s.nextSeq fresh).map (seqInterest u) := by
  induction n generalizing i s with
  | zero => exact ⟨0, s.drops_refl.moves h, rfl⟩
  | succ n ih =>
    rw [Pipe.sendFresh]
    split_ifs
    · obtain ⟨fresh, hm, hinterests⟩ := ih (h.issue (r.stamp i)) (i + 1)
      have hmove := (moves_issue h (r.stamp i)).trans hm fun k hk => absurd hk List.not_mem_nil
      refine ⟨1 + fresh, hmove, ?_⟩
      rw [Nat.add_comm 1 fresh, List.range'_succ, List.map_cons]
      exact congrArg _ hinterests
    · exact ⟨0, s.drops_refl.moves h, rfl⟩

/-- Filling up after something else was sent. -/
theorem Pipe.Posts.fresh (h : s.Posts u s' interests) (hs' : s'.Counted) (r : Readings)
    (n i : Nat) :
    s.Posts u (s'.sendFresh u r n i).pipe (interests ++ (s'.sendFresh u r n i).interests) := by
  obtain ⟨again, fresh, hm, rfl⟩ := h
  obtain ⟨more, hmore, hinterests⟩ := moves_sendFresh (u := u) hs' r n i
  have hmove := hm.trans hmore fun k hk => absurd hk List.not_mem_nil
  rw [List.append_nil] at hmove
  refine ⟨again, fresh + more, hmove, ?_⟩
  have hnext : s'.nextSeq = s.sheet.next + fresh := hm.next
  rw [hinterests, ← List.map_append, numbers, numbers, hnext, List.append_assoc,
    List.range'_append_1]

end Fresh

section Again

private theorem Pipe.sheet_reissue_ne {k seq : Nat} (h : k ≠ seq) (retries sentAt : Nat) :
    (s.reissue seq retries sentAt).sheet.retries k = s.sheet.retries k := by
  simp only [sheet, reissue, AList.lookup_insert_ne h]

private theorem Pipe.mem_of_retries {k n : Nat} (hk : s.sheet.retries k = some n) :
    k ∈ s.timestamps := by
  obtain ⟨t, ht⟩ := sheet_retries_eq_some.mp hk
  exact AList.lookup_isSome.mp (by rw [ht]; rfl)

private theorem Pipe.moves_reissue (h : s.Counted) {seq retries : Nat}
    (hseq : s.sheet.retries seq = some retries) (hlt : retries < maxRetries) (sentAt : Nat) :
    Moves maxRetries s.sheet (s.reissue seq retries sentAt).sheet [seq] 0 where
  next := rfl
  nodup := List.nodup_singleton seq
  repeated k hk := by
    obtain rfl := List.mem_singleton.mp hk
    refine ⟨h.lt_of_retries hseq, retries, hlt, hseq, fun n' hn' => ?_⟩
    simp only [sheet, reissue, AList.lookup_insert, Option.map_some, Option.some.injEq] at hn'
    exact hn'.symm
  old k _ hk n hn := by
    rwa [sheet_reissue_ne fun heq => hk (List.mem_singleton.mpr heq)] at hn
  new k hle n hn := by
    have hne : k ≠ seq := by
      rintro rfl
      exact absurd (h.lt_of_retries hseq) (Nat.not_lt.mpr hle)
    rw [sheet_reissue_ne hne] at hn
    exact absurd (h.lt_of_retries hn) (Nat.not_lt.mpr hle)

/-- Sending again what is outstanding and has retries left, as far as the sends succeed. -/
theorem Pipe.moves_sendAgain (h : s.Counted) (r : Readings) {again : List (Nat × Nat)} (i : Nat)
    (hnodup : (again.map Prod.fst).Nodup)
    (hagain : ∀ x ∈ again, s.sheet.retries x.1 = some x.2 ∧ x.2 < maxRetries) :
    ∃ seqs, (∀ k ∈ seqs, k ∈ again.map Prod.fst) ∧
      Moves maxRetries s.sheet (s.sendAgain u r again i).pipe.sheet seqs 0 ∧
        (s.sendAgain u r again i).interests = seqs.map (seqInterest u) := by
  induction again generalizing i s with
  | nil => exact ⟨[], fun _ hk => hk, s.drops_refl.moves h, rfl⟩
  | cons x again ih =>
    rw [Pipe.sendAgain]
    split_ifs
    · rw [List.map_cons, List.nodup_cons] at hnodup
      obtain ⟨hx, hlt⟩ := hagain x (List.mem_cons_self ..)
      have hrest : ∀ y ∈ again,
          (s.reissue x.1 x.2 (r.stamp i)).sheet.retries y.1 = some y.2 ∧ y.2 < maxRetries := by
        intro y hy
        have hne : y.1 ≠ x.1 := fun heq => hnodup.1 (heq ▸ List.mem_map_of_mem hy)
        rw [sheet_reissue_ne hne]
        exact hagain y (List.mem_cons_of_mem x hy)
      obtain ⟨seqs, hsub, hm, hinterests⟩ :=
        ih (h.reissue (mem_of_retries hx) _ _) (i + 1) hnodup.2 hrest
      have hmove := (moves_reissue h hx hlt (r.stamp i)).trans hm fun k hk => by
        refine ⟨(hm.repeated k hk).1, fun hin => hnodup.1 ?_⟩
        obtain rfl := List.mem_singleton.mp hin
        exact hsub _ hk
      refine ⟨x.1 :: seqs, fun k hk => ?_, hmove, congrArg _ hinterests⟩
      rcases List.mem_cons.mp hk with rfl | hk
      · exact List.mem_cons_self ..
      · exact List.mem_cons_of_mem _ (hsub k hk)
    · exact ⟨[], fun _ hk => absurd hk List.not_mem_nil, s.drops_refl.moves h, rfl⟩

/-- The stale sequence numbers with retries left, each once. -/
theorem Pipe.nodup_toResend (s : Pipe κ ρ) (r : Readings) :
    ((s.toResend u r).map Prod.fst).Nodup := by
  have hkeys : ((r.order.arrange s.timestamps.pairs).map Prod.fst).Nodup := by
    rw [((r.order.perm s.timestamps.pairs).map Prod.fst).nodup_iff, Table.map_fst_pairs]
    exact s.timestamps.keys_nodup
  rw [toResend, List.map_map]
  exact hkeys.sublist (List.filter_sublist.map _)

private theorem Pipe.retries_of_mem_toResend {r : Readings} {x : Nat × Nat}
    (h : x ∈ s.toResend u r) :
    s.sheet.retries x.1 = some x.2 ∧ x.2 < maxRetries := by
  obtain ⟨e, he, rfl⟩ := List.mem_map.mp h
  obtain ⟨hin, htest⟩ := List.mem_filter.mp he
  have hpair := (r.order.perm s.timestamps.pairs).mem_iff.mp hin
  refine ⟨sheet_retries_eq_some.mpr ⟨e.2.1, Table.lookup_of_mem_pairs hpair⟩, ?_⟩
  simpa only [Bool.and_eq_true, Bool.not_eq_true', decide_eq_false_iff_not, Nat.not_le] using
    (Bool.and_eq_true_iff.mp htest).2

/-- Giving up leaves what is to be sent again as it was. -/
theorem Pipe.retries_giveUp {r : Readings} {x : Nat × Nat} (h : x ∈ s.toResend u r) :
    (s.giveUp (s.gaveUp u r)).sheet.retries x.1 = some x.2 ∧ x.2 < maxRetries := by
  obtain ⟨hretries, hlt⟩ := retries_of_mem_toResend h
  obtain ⟨e, he⟩ := Option.isSome_iff_exists.mp (AList.lookup_isSome.mpr (mem_of_mem_toResend h))
  obtain ⟨t, ht⟩ := sheet_retries_eq_some.mp hretries
  have hsame := (s.drops_giveUp (s.gaveUp u r)).entries x.1 e he
  rw [ht] at hsame
  obtain rfl := Option.some.inj hsame
  exact ⟨sheet_retries_eq_some.mpr ⟨t, he⟩, hlt⟩

/-- What a timeout does to stale Interests. -/
theorem Pipe.posts_resend (h : s.Counted) (r : Readings) {again : List (Nat × Nat)}
    (hsub : again.Sublist (s.toResend u r)) :
    s.Posts u ((s.giveUp (s.gaveUp u r)).resend u r again).pipe
      ((s.giveUp (s.gaveUp u r)).resend u r again).interests := by
  refine (s.drops_giveUp (s.gaveUp u r)).posts_trans h ?_
  have hgiven := h.giveUp (u := u) r
  rw [Pipe.resend]
  split_ifs
  · exact (drops_refl _).posts hgiven
  · obtain ⟨seqs, -, hm, hinterests⟩ :=
      moves_sendAgain (u := u) (s := (s.giveUp (s.gaveUp u r)).backOff u)
        ⟨hgiven.below, hgiven.counted⟩ r 0 ((s.nodup_toResend r).sublist (hsub.map _))
        fun x hx => retries_giveUp (hsub.subset hx)
    refine ⟨seqs, 0, hm, ?_⟩
    rw [hinterests, numbers, List.range'_zero, List.append_nil]

end Again

section Steps

/-- What a packet does. -/
theorem Pipe.posts_fill (h : s.Counted) (raw : Bytes) (r : Readings) :
    s.Posts u ((s.accept u raw r.elapsed).fill u r 0).pipe
      ((s.accept u raw r.elapsed).fill u r 0).interests := by
  have haccept := h.accept (u := u) raw r.elapsed
  exact ((s.drops_accept raw r.elapsed).posts h).fresh haccept r _ 0

private theorem Pipe.posts_onPacket (h : s.Counted) (raw : Bytes) (r : Readings) :
    s.Posts u (s.onPacket u raw r).pipe (s.onPacket u raw r).interests := by
  have hdrop : s.Posts u (s.accept u raw r.elapsed) [] := (s.drops_accept raw r.elapsed).posts h
  simp only [Pipe.onPacket]
  split_ifs
  · exact hdrop
  · exact posts_fill h raw r
  · exact hdrop

/-- What the consumer does at the end of a round. -/
theorem Pipe.Posts.refill {a : Sends κ ρ} (h : s.Posts u a.pipe a.interests)
    (ha : a.pipe.Counted) (r : Readings) :
    s.Posts u (a.refill u r).pipe (a.refill u r).interests := by
  rw [Sends.refill]
  split_ifs
  · exact h.fresh ha r _ _
  · exact h

/-- Every step of the consumer is a move. -/
theorem Consumer.posts_step {s : Consumer κ ρ} (h : s.pipe.Counted) (w : Wakeup) :
    s.pipe.Posts u ((consumer u).step s w).1.pipe ((consumer u).step s w).2 := by
  by_cases ho : s.outcome = .running
  · cases w with
    | packet raw r =>
      simp only [consumer, ho, Consumer.onPacket]
      split_ifs
      · exact Pipe.posts_onPacket h raw r
      · exact (Pipe.posts_onPacket h raw r).refill (h.onPacket raw r) r
    | closed =>
      simp only [consumer, ho]
      exact s.pipe.drops_refl.posts h
    | timeout r =>
      have hdrop : s.pipe.Drops (s.checked u r) := by
        rw [Consumer.checked]
        split_ifs
        · exact ⟨rfl, fun _ _ he => he⟩
        · exact s.pipe.drops_refl
      have hchecked : (s.checked u r).Counted := s.counted_checked h r
      simp only [consumer, ho, Consumer.onTimeout]
      split_ifs
      · exact hdrop.posts h
      · have hresend := Pipe.posts_resend (u := u) hchecked r (List.Sublist.refl _)
        refine hdrop.posts_trans h (hresend.refill ?_ r)
        exact (hchecked.giveUp r).resend r fun _ hx => Pipe.mem_of_mem_toResend hx
  · rw [Consumer.step_ended ho]
    exact s.pipe.drops_refl.posts h

/-- Every step of the client that leaves the test going is a move. -/
theorem Client.posts_step {s : Client κ ρ} {w : Wakeup} (h : s.pipe.Counted)
    (ht : ((client u).step s w).1.Testing) :
    s.pipe.Posts u ((client u).step s w).1.pipe ((client u).step s w).2 := by
  obtain ⟨-, ⟨raw, r, hp, hsent, -⟩ | ⟨r, -, -, hstep⟩⟩ := testing_step ht
  · rw [hp, hsent]
    exact Pipe.posts_fill h raw r
  · rw [hstep]
    exact Pipe.posts_resend h r (List.take_sublist _ _)

end Steps

end NdnFwd.Iperf
