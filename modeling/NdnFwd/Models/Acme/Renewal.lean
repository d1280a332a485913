import Mathlib.Data.List.DropRight
import Mathlib.Tactic.Linarith
import NdnFwd.Models.Acme.Cache
import NdnFwd.Models.Acme.Issue

/-!
# The renewal loop

Once a day `renewal_loop` looks at the cached certificate and orders a new one if that has thirty
whole days left or less. An order may fail, and is then made again a day later. A certificate
expires only if this goes wrong for a month.
-/

namespace NdnFwd.Acme

/-- What comes of the order of one day, and what the cache holds if it could not be stored. -/
structure Attempt where
  account : Except String Unit
  issue : Except String CertMaterial
  store : Except String Unit
  leftover : Option CertMaterial
  deriving DecidableEq

/-- What wakes the loop up. -/
inductive RenewalEvent
  /-- A day has passed. -/
  | tick (now : Int) (a : Attempt)
  | cancelled

/-- The loop, and what `CertCache::load` finds. -/
structure Renewal where
  running : Bool
  cached : Option CertMaterial

/-- What the loop logs. -/
inductive RenewalLog
  | renewed (domain : String)
  | storeFailed (e : String)
  | orderFailed (e : String)
  | accountFailed (e : String)
  deriving DecidableEq, Repr

/-- What the loop asks the CA for, and what it logs. -/
inductive RenewalCall
  | newAccount
  | issue
  | log (line : RenewalLog)
  deriving DecidableEq, Repr

section Loop

variable (pki : Pki) (domain : String)

/-- `stale`. -/
def Renewal.stale (s : Renewal) (now : Int) : Bool :=
  (s.cached.map fun mat => needsRenewal pki now mat.certChainPem).getD true

/-- The order of one day. -/
def Renewal.order (s : Renewal) (a : Attempt) : Renewal × List RenewalCall :=
  match a.account with
  | .error e => (s, [.newAccount, .log (.accountFailed e)])
  | .ok _ =>
    match a.issue with
    | .error e => (s, [.newAccount, .issue, .log (.orderFailed e)])
    | .ok mat =>
      match a.store with
      | .error e =>
        ({ s with cached := a.leftover }, [.newAccount, .issue, .log (.storeFailed e)])
      | .ok _ => ({ s with cached := some mat }, [.newAccount, .issue, .log (.renewed domain)])

/-- `renewal_loop`, once it has opened the cache. -/
def renewalLoop : Machine Renewal RenewalEvent RenewalCall where
  step s e :=
    match s.running, e with
    | true, .cancelled => ({ s with running := false }, [])
    | true, .tick now a => if s.stale pki now then s.order domain a else (s, [])
    | false, _ => (s, [])

end Loop

section Window

variable {pki : Pki}

/-- Until when the cached certificate is valid, if there is one that can be read. -/
def Renewal.notAfter (pki : Pki) (s : Renewal) : Option Int :=
  s.cached.bind fun mat => pki.leafNotAfterUnix mat.certChainPem

/-- Thirty whole days or less are less than thirty-one days. -/
def renewalWindow : Int := 31 * 86400

private theorem days_le_iff (now notAfter : Int) :
    (notAfter - now).tdiv 86400 ≤ 30 ↔ notAfter < now + renewalWindow := by
  have hsign : Int.sign 86400 = 1 := rfl
  rw [Int.tdiv_eq_ediv, renewalWindow, hsign]
  split <;> omega

private theorem Renewal.stale_eq_false_iff {s : Renewal} {now : Int} : s.stale pki now = false ↔
    ∃ notAfter, s.notAfter pki = some notAfter ∧ now + renewalWindow ≤ notAfter := by
  unfold stale Renewal.notAfter needsRenewal checkExpiryDays
  cases s.cached with
  | none => simp
  | some mat =>
    simp only [Option.map_some, Option.getD_some, Option.bind_some]
    cases pki.leafNotAfterUnix mat.certChainPem with
    | none => simp
    | some notAfter =>
      simp only [Option.map_some, Option.getD_some, days_le_iff, decide_eq_false_iff_not, not_lt,
        Option.some.injEq, exists_eq_left']

/-- The time of the last tick, or the given time before any. -/
def lastTick (start : Int) (es : List RenewalEvent) : Int :=
  es.foldl (fun last e => match e with
    | .tick now _ => now
    | .cancelled => last) start

private theorem lastTick_snoc (start : Int) (es : List RenewalEvent) (now : Int) (a : Attempt) :
    lastTick start (es ++ [.tick now a]) = now := by
  rw [lastTick, List.foldl_append]
  rfl

/-- The certificate that was issued and stored. -/
def Attempt.material? (a : Attempt) : Option CertMaterial :=
  match a.account, a.issue, a.store with
  | .ok _, .ok mat, .ok _ => some mat
  | _, _, _ => none

/-- The loop orders a certificate and does not come to store it. -/
def fails (pki : Pki) : Renewal × RenewalEvent → Bool
  | (s, .tick now a) => s.running && s.stale pki now && a.material?.isNone
  | (_, .cancelled) => false

variable {domain : String}

/-- How many orders in a row have failed in the end. -/
def failedInRow (pki : Pki) (domain : String) (s : Renewal) (es : List RenewalEvent) : Nat :=
  (((renewalLoop pki domain).visits s es).rtakeWhile (fails pki)).length

private theorem failedInRow_snoc (s : Renewal) (es : List RenewalEvent) (e : RenewalEvent) :
    failedInRow pki domain s (es ++ [e]) =
      if fails pki ((renewalLoop pki domain).run s es, e) = true
      then failedInRow pki domain s es + 1 else 0 := by
  have hvisits : (renewalLoop pki domain).visits s (es ++ [e]) =
      (renewalLoop pki domain).visits s es ++ [((renewalLoop pki domain).run s es, e)] := by
    rw [Machine.visits_append]
    rfl
  rw [failedInRow, hvisits]
  split_ifs with h
  · rw [List.rtakeWhile_concat_pos _ _ _ h, List.length_append]
    rfl
  · rw [List.rtakeWhile_concat_neg _ _ _ h]
    rfl

/-- The days of the loop: ticks follow one another within a time, what is issued is out of the
renewal window, it can be stored, and nobody stops the loop. -/
structure Steady (pki : Pki) (start gap : Int) (es : List RenewalEvent) : Prop where
  ticks : ∀ e ∈ es, e ≠ .cancelled
  gap : ∀ js now a, js ++ [.tick now a] <+: es →
    lastTick start js ≤ now ∧ now ≤ lastTick start js + gap
  fresh : ∀ now a mat, .tick now a ∈ es → a.issue = .ok mat →
    ∃ notAfter, pki.leafNotAfterUnix mat.certChainPem = some notAfter ∧
      now + renewalWindow ≤ notAfter
  store : ∀ now a, .tick now a ∈ es → ∃ u, a.store = .ok u

private theorem Steady.of_isPrefix {start gap : Int} {js es : List RenewalEvent}
    (h : Steady pki start gap es) (hjs : js <+: es) : Steady pki start gap js where
  ticks e he := h.ticks e (hjs.subset he)
  gap ks now a hks := h.gap ks now a (hks.trans hjs)
  fresh now a mat he := h.fresh now a mat (hjs.subset he)
  store now a he := h.store now a (hjs.subset he)

/-- One day: the certificate is kept because it is fresh, or replaced, or the order failed. -/
theorem renewal_tick (pki : Pki) (domain : String) {s : Renewal} (hs : s.running = true)
    (now : Int) {a : Attempt} (hstore : ∃ u, a.store = .ok u) :
    let next := ((renewalLoop pki domain).step s (.tick now a)).1
    next.running = true ∧
      ((s.stale pki now = false ∧ next = s ∧ fails pki (s, .tick now a) = false) ∨
        (∃ mat, a.issue = .ok mat ∧ next.cached = some mat ∧
          fails pki (s, .tick now a) = false) ∨
        (next = s ∧ fails pki (s, .tick now a) = true)) := by
  obtain ⟨u, hu⟩ := hstore
  have hstep : (renewalLoop pki domain).step s (.tick now a) =
      if s.stale pki now then s.order domain a else (s, []) := by
    unfold renewalLoop
    simp only [hs]
  simp only [hstep, fails, hs, Bool.true_and]
  cases hst : s.stale pki now with
  | false => exact ⟨hs, Or.inl ⟨rfl, rfl, rfl⟩⟩
  | true =>
    simp only [if_true, Renewal.order, Attempt.material?, hu, Bool.true_and]
    cases a.account with
    | error e => exact ⟨hs, Or.inr (Or.inr ⟨rfl, rfl⟩)⟩
    | ok _ =>
      cases a.issue with
      | error e => exact ⟨hs, Or.inr (Or.inr ⟨rfl, rfl⟩)⟩
      | ok mat => exact ⟨hs, Or.inr (Or.inl ⟨mat, rfl, rfl, rfl⟩)⟩

/-- Every failure in a row costs one gap of the window. -/
theorem renewal_run (domain : String) {start gap : Int} {s : Renewal} (hs : s.running = true)
    (hstart : ∃ notAfter, s.notAfter pki = some notAfter ∧ start + renewalWindow ≤ notAfter)
    {es : List RenewalEvent} (h : Steady pki start gap es) :
    ((renewalLoop pki domain).run s es).running = true ∧
      ∃ notAfter, ((renewalLoop pki domain).run s es).notAfter pki = some notAfter ∧
        lastTick start es + renewalWindow - failedInRow pki domain s es * gap ≤ notAfter := by
  induction es using List.reverseRecOn with
  | nil =>
    obtain ⟨notAfter, hn, hle⟩ := hstart
    refine ⟨hs, notAfter, hn, ?_⟩
    simpa [failedInRow, lastTick, Machine.visits, List.rtakeWhile] using hle
  | append_singleton es e ih =>
    obtain ⟨hrunning, notAfter, hn, hle⟩ := ih (h.of_isPrefix (List.prefix_append es [e]))
    have hmem : e ∈ es ++ [e] := List.mem_append_right _ (List.mem_singleton_self _)
    cases e with
    | cancelled => exact absurd rfl (h.ticks _ hmem)
    | tick now a =>
      obtain ⟨-, hnow⟩ := h.gap es now a (List.prefix_refl _)
      obtain ⟨hon, hcase⟩ := renewal_tick pki domain hrunning now (h.store now a hmem)
      rw [Machine.run_snoc, lastTick_snoc, failedInRow_snoc]
      refine ⟨hon, ?_⟩
      rcases hcase with ⟨hfresh, hsame, hf⟩ | ⟨mat, hissue, hcached, hf⟩ | ⟨hsame, hf⟩
      · obtain ⟨notAfter', hn', hle'⟩ := Renewal.stale_eq_false_iff.mp hfresh
        rw [hsame, hf]
        exact ⟨notAfter', hn', by simpa using hle'⟩
      · obtain ⟨notAfter', hn', hle'⟩ := h.fresh now a mat hmem hissue
        rw [hf]
        refine ⟨notAfter', ?_, by simpa using hle'⟩
        rw [Renewal.notAfter, hcached]
        exact hn'
      · rw [hsame, hf, if_pos rfl]
        refine ⟨notAfter, hn, ?_⟩
        push_cast
        linarith

/-- If the room that the renewal window leaves is enough for the orders that fail in a row, the
cached certificate is valid at all times up to the next tick. -/
theorem never_expires {start gap : Int} {s : Renewal} (hs : s.running = true)
    (hstart : ∃ notAfter, s.notAfter pki = some notAfter ∧ start + renewalWindow ≤ notAfter)
    {es : List RenewalEvent} (h : Steady pki start gap es)
    (hroom : (failedInRow pki domain s es + 1) * gap ≤ renewalWindow) :
    ∃ notAfter, ((renewalLoop pki domain).run s es).notAfter pki = some notAfter ∧
      ∀ time ≤ lastTick start es + gap, time ≤ notAfter := by
  obtain ⟨-, notAfter, hn, hle⟩ := renewal_run domain hs hstart h
  refine ⟨notAfter, hn, fun time htime => ?_⟩
  linarith

end Window

/-- Certificates that begin with the number of the day of their end. -/
def samplePki : Pki := ⟨fun pem => pem.head?.map fun day => day.toNat * 86400⟩

/-- A certificate of thirty-one days. -/
def sampleRenewal : Renewal := ⟨true, some ⟨[31], []⟩⟩

/-- Two days on which the CA cannot be reached. -/
def outage : List RenewalEvent :=
  [.tick 86400 ⟨.error "unreachable", .error "", .ok (), none⟩,
    .tick 172800 ⟨.error "unreachable", .error "", .ok (), none⟩]

private theorem outage_steady : Steady samplePki 0 86400 outage where
  ticks e he := by
    simp only [outage, List.mem_cons, List.not_mem_nil, or_false] at he
    rcases he with rfl | rfl <;> exact RenewalEvent.noConfusion
  gap js now a hjs := by
    obtain ⟨ks, hks⟩ := hjs
    rcases js with _ | ⟨first, _ | ⟨second, js⟩⟩
    · obtain ⟨rfl, -⟩ := RenewalEvent.tick.inj (List.cons.inj hks).1
      decide
    · obtain ⟨rfl, hrest⟩ := List.cons.inj hks
      obtain ⟨rfl, -⟩ := RenewalEvent.tick.inj (List.cons.inj hrest).1
      decide
    · have hlen := congrArg List.length hks
      simp only [outage, List.length_append, List.length_cons, List.length_nil] at hlen
      omega
  fresh now a mat he hissue := by
    simp only [outage, List.mem_cons, List.not_mem_nil, or_false] at he
    rcases he with he | he
    · obtain ⟨rfl, rfl⟩ := RenewalEvent.tick.inj he
      cases hissue
    · obtain ⟨rfl, rfl⟩ := RenewalEvent.tick.inj he
      cases hissue
  store now a he := by
    simp only [outage, List.mem_cons, List.not_mem_nil, or_false] at he
    rcases he with he | he
    · obtain ⟨rfl, rfl⟩ := RenewalEvent.tick.inj he
      exact ⟨(), rfl⟩
    · obtain ⟨rfl, rfl⟩ := RenewalEvent.tick.inj he
      exact ⟨(), rfl⟩

/-- An outage of some days is survived. -/
theorem outage_not_expired : ∃ notAfter,
    ((renewalLoop samplePki "hub.example").run sampleRenewal outage).notAfter samplePki =
      some notAfter ∧ ∀ time ≤ lastTick 0 outage + 86400, time ≤ notAfter :=
  never_expires rfl ⟨31 * 86400, rfl, by decide⟩ outage_steady (by decide)

end NdnFwd.Acme
