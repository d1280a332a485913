import Mathlib.Data.List.Nodup
import NdnFwd.Models.Traceroute.Stream

/-!
# The distance that traceroute reports

A probe whose hop limit falls short of the target is lost, or answered on the way with the magic of
an identity reply. A client that told every such reply from an answer of the target would never
report too small a distance. This one takes those that name no hop for the target itself.
-/

namespace NdnFwd.Traceroute

section Properties

variable (wire : Wire) (p : TracerouteParams) (d : Nat) (rs : List Resume)

/-- The answers of a run, each with the hop limit of its probe. -/
def answers : List (Nat × Option Bytes) :=
  ((runClient wire p).visits .start rs).filterMap answer?

/-- The answers are those of a network where the target is `d` hops away. -/
structure Network : Prop where
  near : ∀ a ∈ answers wire p rs, a.1 < d → p.identify = true ∧ wire.CarriesMagic a.2
  far : ∀ a ∈ answers wire p rs, d ≤ a.1 → ¬wire.CarriesMagic a.2

/-- The target is never reported nearer than it is, and is reported where it is if a probe that
goes so far is answered. No identity reply is taken for the target. All probes differ in name. -/
structure TrueDistance : Prop where
  atLeast : ∀ hops, .tracerouteSummary hops true ∈ data wire p rs → d ≤ hops
  exact : ∀ hops, .tracerouteSummary hops true ∈ data wire p rs →
    (∃ content, (d, content) ∈ answers wire p rs) → hops = d
  identity : ∀ v ∈ (runClient wire p).visits .start rs, ∀ a ∈ answer? v, wire.CarriesMagic a.2 →
    ∀ e, .tracerouteHop e ∈ structured ((runClient wire p).step v.1 v.2).2 → e.reached = false
  names : ((probes ((runClient wire p).sent .start rs)).map Prod.fst).Nodup

/-- Every answer that carries the magic names a hop. -/
def NamesHops : Prop :=
  ∀ a ∈ answers wire p rs, wire.CarriesMagic a.2 → (wire.hopIdentity a.2).isSome = true

end Properties

variable {wire : Wire} {p : TracerouteParams} {d : Nat} {rs : List Resume} {v : Client × Resume}
  {a : Client × List Message}

section Arrival

private theorem reachedAt?_eq_some_iff {h : Nat} : reachedAt? wire p v = some h ↔
    ∃ a ∈ answer? v, a.1 = h ∧ reaches wire p a.2 = true := by
  rw [reachedAt?]
  cases answer? v with
  | none => simp
  | some a => simp [and_comm]

/-- Content without the magic names no hop. -/
theorem reaches_of_not_magic {content : Option Bytes} (h : ¬wire.CarriesMagic content) :
    reaches wire p content = true := by
  have hnone : wire.hopIdentity content = none := by
    cases content with
    | none => rfl
    | some c =>
      have hpre : c.dropPrefix? wire.magic = none := by
        rw [Option.eq_none_iff_forall_not_mem]
        intro rest hrest
        obtain ⟨magic, rfl, hmagic⟩ := List.dropPrefix?_eq_some_iff.mp hrest
        exact h ⟨_, rfl, rest, by rw [eq_of_beq hmagic]⟩
      simp [Wire.hopIdentity, hpre]
  rw [reaches, hnone]
  exact Bool.or_true _

private theorem eq_finished_iff (h : Nat) (hmove : Move wire p v a) :
    a.1 = .finished (some h) ↔ v.1 = .finished (some h) ∨ reachedAt? wire p v = some h := by
  cases hmove with
  | begin r hhop => simp [reachedAt?, answer?]
  | skip r => simp [reachedAt?, answer?]
  | again outcome hout hleft hr hf => simp [hr]
  | arrive outcome ho hr hf => simp [hr]
  | climb outcome ho hhop hr hf => simp [hr]
  | stop outcome ho hr hf => simp [hr]
  | fail text hr hf => simp [hr]
  | rest hover => simp [reachedAt?, answer?_of_over hover]

/-- The summary says at which visit the target was taken to be reached. -/
theorem summary_move {hops : Nat} (hmove : Move wire p v a)
    (h : .tracerouteSummary hops true ∈ structured a.2) : a.1 = .finished (some hops) := by
  cases hmove with
  | begin r hhop => simp at h
  | skip r => simp at h
  | again outcome hout hleft hr hf => simp at h
  | arrive outcome ho hr hf =>
    obtain ⟨e, hms, -, -⟩ := structured_hop
    rw [hms] at h
    simp at h
    rw [h]
  | climb outcome ho hhop hr hf =>
    obtain ⟨e, hms, -, -⟩ := structured_hop
    rw [hms] at h
    simp at h
  | stop outcome ho hr hf =>
    obtain ⟨e, hms, -, -⟩ := structured_hop
    rw [hms] at h
    simp at h
  | fail text hr hf => simp at h
  | rest hover => simp at h

/-- A hop is shown as reached where the target is taken to be reached. -/
theorem reachedHop_move (hmove : Move wire p v a) :
    (∃ e, .tracerouteHop e ∈ structured a.2 ∧ e.reached = true) ↔
      ∃ h, reachedAt? wire p v = some h := by
  cases hmove with
  | begin r hhop => simp [reachedAt?, answer?]
  | skip r => simp [reachedAt?, answer?]
  | again outcome hout hleft hr hf => simp [hr]
  | arrive outcome ho hr hf =>
    obtain ⟨e, hms, -, hreached⟩ := structured_hop
    exact iff_of_true ⟨e, hms ▸ List.mem_cons_self .., hreached.trans ho⟩ ⟨_, hr⟩
  | climb outcome ho hhop hr hf =>
    obtain ⟨e, hms, -, hreached⟩ := structured_hop
    rw [hms]
    simp [hr, hreached, ho]
  | stop outcome ho hr hf =>
    obtain ⟨e, hms, -, hreached⟩ := structured_hop
    rw [hms]
    simp [hr, hreached, ho]
  | fail text hr hf => simp [hr]
  | rest hover => simp [reachedAt?, answer?_of_over hover]

/-- Once taken to be reached, the target stays reached. -/
theorem run_eq_finished_iff (wire : Wire) (p : TracerouteParams) (h : Nat) (s : Client)
    (rs : List Resume) : (runClient wire p).run s rs = .finished (some h) ↔
      s = .finished (some h) ∨
        ∃ v ∈ (runClient wire p).visits s rs, reachedAt? wire p v = some h :=
  (runClient wire p).run_iff_exists (P := (· = .finished (some h)))
    (Q := (reachedAt? wire p · = some h))
    (fun s r => eq_finished_iff h (move_step wire p (s, r))) s rs

private theorem run_of_summary {hops : Nat} (h : .tracerouteSummary hops true ∈ data wire p rs) :
    (runClient wire p).run .start rs = .finished (some hops) := by
  obtain ⟨m, hm, hdata⟩ := List.mem_filterMap.mp h
  obtain ⟨v, hv, hstep⟩ := (Machine.mem_sent_iff _ _ _ m).mp hm
  have hfinished := summary_move (move_step wire p v) (List.mem_filterMap.mpr ⟨m, hstep, hdata⟩)
  obtain ⟨js, ks, rfl, hrun⟩ := Machine.exists_of_mem_visits _ hv
  rw [Machine.run_append, Machine.run_cons, ← hrun]
  exact (run_eq_finished_iff wire p hops _ ks).mpr (Or.inl hfinished)

end Arrival

section Names

variable {sent : List (Name × Nat)} {n : Nat}

/-- The probes that were sent are numbered from zero. -/
def Numbered (wire : Wire) (p : TracerouteParams) (sent : List (Name × Nat)) (n : Nat) : Prop :=
  sent.map Prod.fst = (List.range n).map (wire.probeName p)

/-- What was sent before a point of a run. A probe in flight goes as far as its hop. -/
def SentAt (wire : Wire) (p : TracerouteParams) (sent : List (Name × Nat)) : Client → Prop
  | .start => sent = []
  | .probing t => Numbered wire p sent t.seq ∧ sent.getLast?.map Prod.snd = some t.hop
  | .finished _ | .failed => ∃ n, Numbered wire p sent n

/-- The next probe carries the next number. -/
theorem Numbered.snoc (h : Numbered wire p sent n) (hop : Nat) :
    Numbered wire p (sent ++ [(wire.probeName p n, hop)]) (n + 1) := by
  rw [Numbered, List.map_append, h, List.range_succ, List.map_append]
  rfl

/-- Their names differ in the number. -/
theorem Numbered.nodup (h : Numbered wire p sent n) : (sent.map Prod.fst).Nodup := by
  rw [h]
  refine List.nodup_range.map fun i j hij => ?_
  apply Digits.decimal_injective
  simp only [Wire.probeName, List.append_assoc, List.append_cancel_left_eq, List.cons_append,
    List.cons.injEq] at hij
  exact (NameComponent.mk.inj hij.2.1).2

private theorem sentAt_move (h : SentAt wire p sent v.1) (hmove : Move wire p v a) :
    SentAt wire p (sent ++ probes a.2) a.1 := by
  have hlast : ∀ name hop, (sent ++ [(name, hop)]).getLast?.map Prod.snd = some hop := by simp
  cases hmove with
  | begin r hhop =>
    obtain rfl : sent = [] := h
    exact ⟨rfl, rfl⟩
  | skip r =>
    obtain rfl : sent = [] := h
    exact ⟨0, rfl⟩
  | again outcome hout hleft hr hf => exact ⟨h.1.snoc _, hlast _ _⟩
  | arrive outcome ho hr hf => exact ⟨_, (List.append_nil sent).symm ▸ h.1⟩
  | climb outcome ho hhop hr hf => exact ⟨h.1.snoc _, hlast _ _⟩
  | stop outcome ho hr hf => exact ⟨_, (List.append_nil sent).symm ▸ h.1⟩
  | fail text hr hf => exact ⟨_, (List.append_nil sent).symm ▸ h.1⟩
  | rest hover =>
    change SentAt wire p (sent ++ []) _
    rwa [List.append_nil]

private theorem sentAt_run (wire : Wire) (p : TracerouteParams) (rs : List Resume) :
    SentAt wire p (probes ((runClient wire p).sent .start rs))
      ((runClient wire p).run .start rs) := by
  induction rs using List.reverseRecOn with
  | nil => exact rfl
  | append_singleton rs r ih =>
    rw [Machine.sent_snoc, probes, List.filterMap_append, Machine.run_snoc]
    exact sentAt_move (v := (_, r)) ih (move_step wire p _)

/-- All probes of a run differ in name. -/
theorem nodup_names (wire : Wire) (p : TracerouteParams) (rs : List Resume) :
    ((probes ((runClient wire p).sent .start rs)).map Prod.fst).Nodup := by
  have hsent := sentAt_run wire p rs
  generalize (runClient wire p).run .start rs = s at hsent
  cases s with
  | start =>
    have hnil : probes ((runClient wire p).sent .start rs) = [] := hsent
    rw [hnil]
    exact List.nodup_nil
  | probing t => exact hsent.1.nodup
  | finished reachedAt => exact hsent.choose_spec.nodup
  | failed => exact hsent.choose_spec.nodup

end Names

/-- In a network where the target is `d` hops away, its distance comes out right exactly if every
answer with the magic names a hop. -/
theorem trueDistance_iff (wire : Wire) (p : TracerouteParams) (d : Nat) (rs : List Resume)
    (hnet : Network wire p d rs) : TrueDistance wire p d rs ↔ NamesHops wire p rs := by
  have hreaches : ∀ a ∈ answers wire p rs, wire.CarriesMagic a.2 →
      (reaches wire p a.2 = true ↔ ¬(wire.hopIdentity a.2).isSome = true) := by
    intro a ha hmagic
    have hnear : a.1 < d := Nat.not_le.mp fun hfar => hnet.far a ha hfar hmagic
    rw [reaches, (hnet.near a ha hnear).1]
    simp
  have hanswers : ∀ v ∈ (runClient wire p).visits .start rs, ∀ a ∈ answer? v,
      a ∈ answers wire p rs := fun v hv a ha => List.mem_filterMap.mpr ⟨v, hv, ha⟩
  constructor
  · intro h a ha hmagic
    obtain ⟨v, hv, hanswer⟩ := List.mem_filterMap.mp ha
    by_contra hnone
    have hat : reachedAt? wire p v = some a.1 :=
      reachedAt?_eq_some_iff.mpr ⟨a, hanswer, rfl, (hreaches a ha hmagic).mpr hnone⟩
    obtain ⟨e, he, hreached⟩ := (reachedHop_move (move_step wire p v)).mpr ⟨a.1, hat⟩
    have hfalse := h.identity v hv a hanswer hmagic e he
    rw [hreached] at hfalse
    cases hfalse
  · intro h
    refine ⟨fun hops hsummary => ?_, fun hops hsummary hd => ?_, ?_, nodup_names wire p rs⟩
    · -- the answer that was taken for the target has no magic, so it comes from far enough
      have hrun := (run_eq_finished_iff wire p hops _ rs).mp (run_of_summary hsummary)
      obtain ⟨v, hv, hat⟩ := hrun.resolve_left Client.noConfusion
      obtain ⟨a, hanswer, rfl, htaken⟩ := reachedAt?_eq_some_iff.mp hat
      have ha := hanswers v hv a hanswer
      by_contra hd
      have hmagic := (hnet.near a ha (Nat.not_le.mp hd)).2
      exact (hreaches a ha hmagic).mp htaken (h a ha hmagic)
    · obtain ⟨content, ha⟩ := hd
      obtain ⟨v, hv, hanswer⟩ := List.mem_filterMap.mp ha
      have hat : reachedAt? wire p v = some d := reachedAt?_eq_some_iff.mpr
        ⟨_, hanswer, rfl, reaches_of_not_magic (hnet.far _ ha (Nat.le_refl d))⟩
      have hrun := (run_eq_finished_iff wire p d _ rs).mpr (Or.inr ⟨v, hv, hat⟩)
      rw [run_of_summary hsummary] at hrun
      exact Option.some.inj (Client.finished.inj hrun)
    · intro v hv a hanswer hmagic e he
      by_contra hreached
      obtain ⟨hop, hat⟩ := (reachedHop_move (move_step wire p v)).mp
        ⟨e, he, Bool.not_eq_false _ ▸ hreached⟩
      obtain ⟨a', hanswer', -, htaken⟩ := reachedAt?_eq_some_iff.mp hat
      obtain rfl := Option.mem_unique hanswer hanswer'
      have ha := hanswers v hv a hanswer
      exact (hreaches a ha hmagic).mp htaken (h a ha hmagic)

section Samples

/-- The first hop answers with a name that is no text. -/
def sampleGarbled : List Resume :=
  resumes [.data (some (asBytes "TRH-ID:" ++ [0xFF])) 40]

private theorem sampleReached_network : Network sampleWire sampleParams 2 sampleReached :=
  ⟨by decide, by decide⟩

/-- A producer at two hops. -/
theorem sampleReached_trueDistance : TrueDistance sampleWire sampleParams 2 sampleReached :=
  (trueDistance_iff sampleWire sampleParams 2 sampleReached sampleReached_network).mpr
    (by simp only [NamesHops]; decide)

/-- The target is reported one hop away where it is two hops away. -/
theorem sampleGarbled_short : Network sampleWire sampleParams 2 sampleGarbled ∧
    ¬TrueDistance sampleWire sampleParams 2 sampleGarbled := by
  refine ⟨⟨by decide, by decide⟩, fun h => ?_⟩
  exact absurd (h.atLeast 1 (List.mem_of_getLast? rfl)) (by decide)

end Samples

end NdnFwd.Traceroute
