import NdnFwd.Models.Otel.Bridge

/-!
# Conservation of spans

The bridge refines a ledger: a pair is taken in when its line is reached, and from
then on its span waits in the batch, was exported once, or is lost. A failed POST
loses nothing. A failed span fetch loses the span, because the pair is noted before
the fetch and never asked for again.
-/

namespace NdnFwd.Otel

/-- The bridge as a ledger of pairs. -/
def Bridge.ledger (s : Bridge) : Ledger Pair :=
  ⟨s.seen, s.batch.map Span.id, s.posts.flatten.map Span.id⟩

/-- The bytes a span fetch yields. Data without content yields none. -/
def spanBody (fetch : Pair → Option Data) (p : Pair) : Option Bytes := (fetch p).bind Data.content

section Poll

variable {cli : Cli} {fetch : Pair → Option Data}

/-- All that one line can do to the ledger. -/
theorem pollLine_cases {s s' : Bridge} {line : Bytes} {asked : List Request}
    (h : pollLine cli fetch s line = .ok (s', asked)) :
    (s' = s ∧ asked = [] ∧ (linePair line = .ok none ∨
        ∃ p, linePair line = .ok (some p) ∧ p ∈ s.seen)) ∨
      ∃ p, linePair line = .ok (some p) ∧ p ∉ s.seen ∧
        asked = [.fetch (spanDataName cli.ndnPrefix p)] ∧
        ((spanBody fetch p ≠ none ∧ s'.ledger = s.ledger.take p) ∨
          (spanBody fetch p = none ∧ s'.ledger = s.ledger.drop p)) := by
  unfold pollLine at h
  cases hp : linePair line with
  | error e =>
    rw [hp] at h
    cases h
  | ok r =>
    cases r with
    | none =>
      rw [hp] at h
      obtain ⟨rfl, rfl⟩ := Prod.mk.inj (Except.ok.inj h)
      exact Or.inl ⟨rfl, rfl, Or.inl rfl⟩
    | some p =>
      simp only [hp] at h
      by_cases hs : p ∈ s.seen
      · rw [if_pos hs] at h
        obtain ⟨rfl, rfl⟩ := Prod.mk.inj (Except.ok.inj h)
        exact Or.inl ⟨rfl, rfl, Or.inr ⟨p, rfl, hs⟩⟩
      · rw [if_neg hs] at h
        refine Or.inr ⟨p, rfl, hs, ?_⟩
        cases hf : fetch p with
        | none =>
          rw [hf] at h
          obtain ⟨rfl, rfl⟩ := Prod.mk.inj (Except.ok.inj h)
          exact ⟨rfl, Or.inr ⟨by rw [spanBody, hf]; rfl, rfl⟩⟩
        | some spanData =>
          simp only [hf] at h
          cases hc : spanData.content with
          | none =>
            rw [hc] at h
            obtain ⟨rfl, rfl⟩ := Prod.mk.inj (Except.ok.inj h)
            exact ⟨rfl, Or.inr ⟨by rw [spanBody, hf, Option.bind_some, hc], rfl⟩⟩
          | some body =>
            rw [hc] at h
            obtain ⟨rfl, rfl⟩ := Prod.mk.inj (Except.ok.inj h)
            refine ⟨rfl, Or.inl ⟨?_, ?_⟩⟩
            · rw [spanBody, hf, Option.bind_some, hc]
              exact Option.some_ne_none body
            · rw [Bridge.ledger, List.map_append]
              rfl

private theorem seen_of_move {s s' : Bridge} {p : Pair} {a b : Prop}
    (h : (a ∧ s'.ledger = s.ledger.take p) ∨ (b ∧ s'.ledger = s.ledger.drop p)) :
    s'.seen = insert p s.seen := by
  obtain ⟨-, he⟩ | ⟨-, he⟩ := h <;> exact congrArg Ledger.seen he

/-- Only the slicing can make a line fail. -/
theorem linePair_of_pollLine_error {s : Bridge} {line : Bytes} {e : Panic}
    (h : pollLine cli fetch s line = .error e) : linePair line = .error e := by
  unfold pollLine at h
  split at h
  · rw [← Except.error.inj h]
    assumption
  · cases h
  · split at h
    · cases h
    · simp only at h
      split at h
      · split at h <;> cases h
      · cases h

/-- A poll keeps the ledger sound. It loses the new pairs whose span it did not get. -/
theorem pollLines_ledger (cli : Cli) (fetch : Pair → Option Data) {s : Bridge}
    (hs : s.ledger.Sound) (ls : List Bytes) :
    (pollLines cli fetch s ls).1.ledger.Sound ∧
      ∀ q, (pollLines cli fetch s ls).1.ledger.Lost q ↔
        s.ledger.Lost q ∨ (q ∈ listing ls ∧ q ∉ s.seen ∧ spanBody fetch q = none) := by
  induction ls generalizing s with
  | nil => exact ⟨hs, fun q => by simp [pollLines, listing, Bridge.ledger, Ledger.Lost]⟩
  | cons line rest ih =>
    rw [pollLines, listing]
    cases hl : pollLine cli fetch s line with
    | error e =>
      rw [linePair_of_pollLine_error hl]
      exact ⟨hs, fun q => by simp [Bridge.ledger, Ledger.Lost]⟩
    | ok r =>
      obtain ⟨s', asked⟩ := r
      obtain ⟨rfl, -, hskip⟩ | ⟨p, hp, hnew, -, htake⟩ := pollLine_cases hl
      · -- nothing happens: the line has no pair, or an old one
        obtain ⟨hsound, hlost⟩ := ih hs
        refine ⟨hsound, fun q => (hlost q).trans ?_⟩
        obtain hnone | ⟨p, hp, hold⟩ := hskip
        · rw [hnone]
        · rw [hp, List.mem_cons]
          constructor
          · rintro (h | ⟨hq, hns, hb⟩)
            · exact Or.inl h
            · exact Or.inr ⟨Or.inr hq, hns, hb⟩
          · rintro (h | ⟨rfl | hq, hns, hb⟩)
            · exact Or.inl h
            · exact absurd hold hns
            · exact Or.inr ⟨hq, hns, hb⟩
      · have hsound' : s'.ledger.Sound := by
          obtain ⟨-, he⟩ | ⟨-, he⟩ := htake
          · exact he ▸ hs.take hnew
          · exact he ▸ hs.drop p
        have hlost' : ∀ q,
            s'.ledger.Lost q ↔ s.ledger.Lost q ∨ (q = p ∧ spanBody fetch p = none) := by
          intro q
          obtain ⟨hb, he⟩ | ⟨hb, he⟩ := htake
          · have hnot : ¬s.ledger.Lost p := fun hlost => hnew hlost.1
            rw [he, Ledger.lost_take]
            constructor
            · exact fun h => Or.inl h.2
            · rintro (h | ⟨-, hn⟩)
              · exact ⟨fun hq => hnot (hq ▸ h), h⟩
              · exact absurd hn hb
          · rw [he, Ledger.lost_drop hs hnew, or_comm]
            simp only [hb, and_true]
        obtain ⟨hsound, hlost⟩ := ih hsound'
        refine ⟨hsound, fun q => (hlost q).trans ?_⟩
        rw [hlost' q, hp, List.mem_cons, seen_of_move htake, Finset.mem_insert, or_assoc]
        apply or_congr_right
        by_cases hq : q = p
        · subst hq
          simp only [true_and, true_or, not_true_eq_false, false_and, and_false, or_false, hnew,
            not_false_eq_true]
        · simp only [hq, false_and, false_or]

/-- A poll asks for every pair it reads that is not noted yet. -/
theorem mem_pollLines_asked {s : Bridge} {ls : List Bytes} {p : Pair} (hp : p ∈ listing ls)
    (hnew : p ∉ s.seen) :
    Request.fetch (spanDataName cli.ndnPrefix p) ∈ (pollLines cli fetch s ls).2 := by
  induction ls generalizing s with
  | nil => cases hp
  | cons line rest ih =>
    rw [listing] at hp
    rw [pollLines]
    cases hl : pollLine cli fetch s line with
    | error e =>
      rw [linePair_of_pollLine_error hl] at hp
      cases hp
    | ok r =>
      obtain ⟨s', asked⟩ := r
      rw [List.mem_append]
      obtain ⟨rfl, -, hnone | ⟨p', hp', hold⟩⟩ | ⟨p', hp', -, hasked, htake⟩ := pollLine_cases hl
      · rw [hnone] at hp
        exact Or.inr (ih hp hnew)
      · rw [hp'] at hp
        rcases List.mem_cons.mp hp with rfl | hp
        · exact absurd hold hnew
        · exact Or.inr (ih hp hnew)
      · rw [hp'] at hp
        by_cases he : p = p'
        · rw [hasked, he]
          exact Or.inl (List.mem_singleton_self _)
        · have hrest := (List.mem_cons.mp hp).resolve_left he
          refine Or.inr (ih hrest ?_)
          rw [seen_of_move htake, Finset.mem_insert, not_or]
          exact ⟨he, hnew⟩

end Poll

section Run

variable {cli : Cli}

/-- At this step a poll reads a listing that has the pair `p`, and `fetch` answers its fetches. -/
def Reads (s : Bridge) (e : Event) (fetch : Pair → Option Data) (p : Pair) : Prop :=
  s.phase = .select ∧ ∃ recent text,
    e = .poll recent fetch ∧ recentText recent = some text ∧ p ∈ listing (lines text)

/-- Some poll of the run has read the pair in a listing. -/
def Listed (visits : List (Bridge × Event)) (p : Pair) : Prop :=
  ∃ v ∈ visits, ∃ fetch, Reads v.1 v.2 fetch p

/-- This step reads a pair that is not noted yet, and its fetch fails or yields no content. -/
def Misses (s : Bridge) (e : Event) (p : Pair) : Prop :=
  ∃ fetch, Reads s e fetch p ∧ p ∉ s.seen ∧ spanBody fetch p = none

/-- A POST that succeeds ships the batch; nothing else changes the ledger. -/
theorem flush_ledger (cli : Cli) (post : Bool) (s : Bridge) :
    (flush cli post s).1.ledger = s.ledger ∨ (flush cli post s).1.ledger = s.ledger.ship := by
  unfold flush
  by_cases hb : s.batch = []
  · rw [if_pos hb]
    exact Or.inl rfl
  · rw [if_neg hb]
    cases post with
    | false => exact Or.inl rfl
    | true =>
      refine Or.inr ?_
      simp [Bridge.ledger, Ledger.ship]

private theorem flush_keeps (cli : Cli) (post : Bool) {s : Bridge} (hs : s.ledger.Sound) :
    (flush cli post s).1.ledger.Sound ∧
      ∀ q, (flush cli post s).1.ledger.Lost q ↔ s.ledger.Lost q := by
  obtain he | he := flush_ledger cli post s
  · exact ⟨he ▸ hs, fun q => by rw [he]⟩
  · exact ⟨he ▸ hs.ship, fun q => by rw [he, Ledger.lost_ship]⟩

/-- One step keeps the ledger sound and loses exactly the pairs it misses. -/
theorem step_ledger (cli : Cli) {s : Bridge} (hs : s.ledger.Sound) (e : Event) :
    ((bridge cli).step s e).1.ledger.Sound ∧
      ∀ q, ((bridge cli).step s e).1.ledger.Lost q ↔ s.ledger.Lost q ∨ Misses s e q := by
  have hidle : (∀ fetch p, ¬Reads s e fetch p) →
      ∀ q, s.ledger.Lost q ↔ s.ledger.Lost q ∨ Misses s e q :=
    fun hno q => ⟨Or.inl, fun h => h.elim id fun ⟨fetch, hr, _⟩ => absurd hr (hno fetch q)⟩
  cases hph : s.phase with
  | select =>
    cases e with
    | poll recent fetch =>
      simp only [bridge, hph, pollOnce]
      cases ht : recentText recent with
      | none =>
        refine ⟨hs, hidle fun fetch' p hr => ?_⟩
        obtain ⟨-, recent', text, he, ht', -⟩ := hr
        obtain ⟨rfl, rfl⟩ := Event.poll.inj he
        rw [ht] at ht'
        cases ht'
      | some text =>
        obtain ⟨hsound, hlost⟩ := pollLines_ledger cli fetch hs (lines text)
        refine ⟨hsound, fun q => (hlost q).trans (or_congr_right ?_)⟩
        constructor
        · rintro ⟨hq, hns, hb⟩
          exact ⟨fetch, ⟨hph, recent, text, rfl, ht, hq⟩, hns, hb⟩
        · rintro ⟨fetch', ⟨-, recent', text', he, ht', hq⟩, hns, hb⟩
          obtain ⟨rfl, rfl⟩ := Event.poll.inj he
          obtain rfl := Option.some.inj (ht.symm.trans ht')
          exact ⟨hq, hns, hb⟩
    | flush now post =>
      simp only [bridge, hph]
      exact ⟨hs, hidle fun fetch p ⟨_, _, _, he, _⟩ => Event.noConfusion he⟩
    | shutdown post =>
      simp only [bridge, hph]
      obtain ⟨hsound, hlost⟩ := flush_keeps cli post hs
      refine ⟨hsound, fun q => (hlost q).trans ?_⟩
      exact hidle (fun fetch p ⟨_, _, _, he, _⟩ => Event.noConfusion he) q
  | check =>
    have hno : ∀ fetch p, ¬Reads s e fetch p := by
      rintro fetch p ⟨hsel, -⟩
      rw [hph] at hsel
      cases hsel
    cases e with
    | flush now post =>
      simp only [bridge, hph]
      split_ifs
      · obtain ⟨hsound, hlost⟩ := flush_keeps cli post hs
        exact ⟨hsound, fun q => (hlost q).trans (hidle hno q)⟩
      · exact ⟨hs, hidle hno⟩
    | _ =>
      simp only [bridge, hph]
      exact ⟨hs, hidle hno⟩
  | _ =>
    simp only [bridge, hph]
    refine ⟨hs, hidle fun fetch p ⟨hsel, _⟩ => ?_⟩
    rw [hph] at hsel
    cases hsel

/-- A run loses exactly the pairs that one of its steps misses. -/
theorem run_ledger {s : Bridge} (hs : s.ledger.Sound) (es : List Event) :
    ((bridge cli).run s es).ledger.Sound ∧
      ∀ q, ((bridge cli).run s es).ledger.Lost q ↔
        s.ledger.Lost q ∨ ∃ v ∈ (bridge cli).visits s es, Misses v.1 v.2 q := by
  induction es generalizing s with
  | nil => exact ⟨hs, fun q => by simp [Machine.visits]⟩
  | cons e es ih =>
    obtain ⟨hsound, hlost⟩ := step_ledger cli hs e
    obtain ⟨hsound', hlost'⟩ := ih hsound
    refine ⟨hsound', fun q => ?_⟩
    rw [Machine.run_cons, hlost' q, hlost q, Machine.visits, List.exists_mem_cons_iff, or_assoc]

private theorem start_sound (now : Nat) : (Bridge.start now).ledger.Sound :=
  ⟨List.nodup_nil, fun a ha => by cases ha⟩

/-- A poll that reads an eligible pair fetches its span. -/
theorem mem_asked_of_reads {s : Bridge} {e : Event} {fetch : Pair → Option Data} {p : Pair}
    (h : Reads s e fetch p) (hnew : p ∉ s.seen) :
    Request.fetch (spanDataName cli.ndnPrefix p) ∈ ((bridge cli).step s e).2 := by
  obtain ⟨hph, recent, text, rfl, ht, hp⟩ := h
  simp only [bridge, hph, pollOnce, ht]
  exact List.mem_cons_of_mem _ (mem_pollLines_asked hp hnew)

/-- At every point of a run, every pair listed so far is exported once, waits once, or may
still be fetched, and only one of these. -/
def Conserved (cli : Cli) (now : Nat) (es : List Event) : Prop :=
  ∀ es', es' <+: es → ∀ p, Listed ((bridge cli).visits (Bridge.start now) es') p →
    ((bridge cli).run (Bridge.start now) es').ledger.Accounted p

/-- Spans are conserved in exactly the runs in which every fetch of a newly listed span
returns Data with content. -/
theorem conserved_iff (cli : Cli) (now : Nat) (es : List Event) :
    Conserved cli now es ↔
      ∀ v ∈ (bridge cli).visits (Bridge.start now) es, ∀ p, ¬Misses v.1 v.2 p := by
  have hstart : ∀ p, ¬(Bridge.start now).ledger.Lost p := fun p h => Finset.notMem_empty p h.1
  have hrun : ∀ es', ((bridge cli).run (Bridge.start now) es').ledger.Sound ∧ _ := fun es' =>
    run_ledger (start_sound now) es'
  constructor
  · intro hc v hv p hmiss
    have hlost := ((hrun es).2 p).mpr (Or.inr ⟨v, hv, hmiss⟩)
    obtain ⟨fetch, hr, -⟩ := hmiss
    exact ((hrun es).1.accounted_iff p).mp (hc es (List.prefix_refl es) p ⟨v, hv, fetch, hr⟩) hlost
  · intro hno es' hpre p hlisted
    refine ((hrun es').1.accounted_iff p).mpr fun hlost => ?_
    obtain h | ⟨v, hv, hmiss⟩ := ((hrun es').2 p).mp hlost
    · exact hstart p h
    · exact hno v ((bridge cli).mem_visits_of_isPrefix hpre hv) p hmiss

/-- One line of a listing. -/
def listedLine : Bytes := asBytes "0102030405060708090a0b0c0d0e0f10/a1a2a3a4a5a6a7a8"

/-- The pair on it. -/
def listedPair : Pair :=
  ([1, 2, 3, 4, 5, 6, 7, 8, 9, 10, 11, 12, 13, 14, 15, 16],
    [0xA1, 0xA2, 0xA3, 0xA4, 0xA5, 0xA6, 0xA7, 0xA8])

/-- The span fetch of the first poll fails; every later one would succeed. -/
def failedOnce : List Event :=
  [.poll (some ⟨[], none, some listedLine⟩) fun _ => none,
    .flush 1000 true,
    .poll (some ⟨[], none, some listedLine⟩) fun _ => some ⟨[], none, some [1, 2, 3]⟩,
    .flush 2000 true]

/-- The default arguments of the bridge. -/
def defaultCli : Cli where
  ndnPrefix := [.generic (asBytes "localhost"), .generic (asBytes "nfd"),
    .generic (asBytes "observability")]
  otlpEndpoint := "http://localhost:4318/v1/traces"
  batchSize := 100
  batchTimeout := 5000
  serviceName := "ndn-rs"

/-- A span whose fetch failed once is neither exported nor waiting nor eligible, although a
later poll lists it again. -/
theorem not_conserved_failedOnce : ¬Conserved defaultCli 0 failedOnce := by
  intro h
  have hlisted : Listed ((bridge defaultCli).visits (Bridge.start 0) failedOnce) listedPair := by
    refine ⟨_, List.mem_cons_self .., fun _ => none, rfl, _, listedLine, rfl, rfl, ?_⟩
    exact List.mem_singleton.mpr rfl
  have hacc := h failedOnce (List.prefix_refl _) listedPair hlisted
  have hgone : ((bridge defaultCli).run (Bridge.start 0) failedOnce).ledger =
    ⟨{listedPair}, [], []⟩ := rfl
  rw [hgone] at hacc
  simp [Ledger.Accounted, Window.ExactlyOne] at hacc

end Run

end NdnFwd.Otel
