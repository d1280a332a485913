import NdnFwd.Models.Acme.Zone

/-!
# What an order leaves in the zone

An order that is carried out undisturbed places its records and removes as many. A name that had
no record before has none afterwards. One that had records has fewer: the order overwrote the first
of them and then deleted it.
-/

namespace NdnFwd.Acme

/-- An order under way, the call whose outcome it waits for, and the zone. -/
structure Order (ζ : Type*) where
  issue : Issue
  pending : Option Call
  zone : ζ

/-- What happens next. -/
inductive OrderEvent
  /-- The CA or the clock answers, or the request has been made. -/
  | reply (r : Reply)
  /-- The call of the DNS provider is carried out. -/
  | dns (w : Weather)

/-- The outcome is one of the call, which is not one of the DNS provider. -/
def Call.answeredBy : Call → Reply → Bool
  | .newOrder _, .newOrder _ => true
  | .authorizations, .authorizations _ => true
  | .setChallengeReady _, .setChallengeReady _ => true
  | .refresh, .refresh _ => true
  | .sleep _, .slept => true
  | .makeRequest _, .makeRequest _ => true
  | .finalize _, .finalize _ => true
  | .certificate, .certificate _ => true
  | _, _ => false

section Step

variable {ζ : Type*} (client : AcmeClient) (api : ZoneApi ζ) (params : CloudflareParams)

/-- `issue` goes on with an outcome. -/
def Order.resume (s : Order ζ) (r : Reply) (zone : ζ) : Order ζ × List Call :=
  let next := client.issue.step s.issue r
  (⟨next.1, next.2.head?, zone⟩, next.2)

/-- `issue` with the Cloudflare provider. -/
def order : Machine (Order ζ) OrderEvent Call where
  step s e :=
    match s.pending, e with
    | some (.upsertTxt record), .dns w =>
      let outcome := api.upsertTxt params record w s.zone
      s.resume client (.upsertTxt outcome.1) outcome.2
    | some (.deleteTxt record), .dns w =>
      let outcome := api.deleteTxt params record w s.zone
      s.resume client (.deleteTxt outcome.1) outcome.2
    | some call, .reply r => if call.answeredBy r then s.resume client r s.zone else (s, [])
    | _, _ => (s, [])

/-- Before its first call. -/
def Order.start (zone : ζ) : Order ζ := ⟨.start, some (.newOrder client.domain), zone⟩

/-- How many of the records have a name. -/
def countPlaced (records : List DnsRecord) (name : String) : Nat :=
  records.countP fun r => r.name = name

end Step

/-- The phase waits for the outcome of such a call. -/
def Phase.awaits : Phase → Call → Bool
  | .ordering, .newOrder _ => true
  | .authorizing, .authorizations => true
  | .readying _, .setChallengeReady _ => true
  | .refreshing .., .refresh => true
  | .backingOff .., .sleep _ => true
  | .requesting, .makeRequest _ => true
  | .finalizing _, .finalize _ => true
  | .polling _, .certificate => true
  | .waiting _, .sleep _ => true
  | _, _ => false

section Undisturbed

variable {ζ : Type*} {client : AcmeClient} {api : ZoneApi ζ} {params : CloudflareParams}
  {before count : String → Nat} {placed : List DnsRecord}

/-- How many records a name has while records are in place. -/
def whilePlaced (before : String → Nat) (placed : List DnsRecord) (name : String) : Nat :=
  if countPlaced placed name = 0 then before name else max (before name) 1

/-- The numbers of records fit what the order has placed and removed, and the pending call fits its
phase. -/
def Stands (before : String → Nat) (placed : List DnsRecord) (count : String → Nat) :
    Phase → Option Call → Prop
  | .placing record _ _, pending =>
    pending = some (.upsertTxt record) ∧ count = whilePlaced before placed
  | .deleting _ rest, pending => ∃ record gone, pending = some (.deleteTxt record) ∧
      placed = gone ++ record :: rest ∧
      ∀ n, count n = whilePlaced before placed n - countPlaced gone n
  | .returned (.ok _), pending => pending = none ∧
      ∀ n, count n = whilePlaced before placed n - countPlaced placed n
  | .returned (.error _), pending => pending = none
  | phase, pending => (∃ call, pending = some call ∧ phase.awaits call = true) ∧
      count = whilePlaced before placed

/-- The same of a step of `issue` and the call it makes. -/
def StandsAfter (before count : String → Nat) (a : Issue × List Call) : Prop :=
  Stands before a.1.placed count a.1.phase a.2.head?

private theorem countPlaced_snoc (r : DnsRecord) (n : String) :
    countPlaced (placed ++ [r]) n = countPlaced placed n + if r.name = n then 1 else 0 := by
  by_cases hn : r.name = n <;> simp [countPlaced, List.countP_append, hn]

/-- One more record in place. -/
theorem whilePlaced_snoc (r : DnsRecord) (n : String) : whilePlaced before (placed ++ [r]) n =
    if r.name = n then max (whilePlaced before placed n) 1 else whilePlaced before placed n := by
  rw [whilePlaced, whilePlaced, countPlaced_snoc]
  by_cases hn : r.name = n <;> by_cases hk : countPlaced placed n = 0 <;> simp [hn, hk]

private theorem standsAfter_authorize (h : count = whilePlaced before placed)
    (authzs : List Authorization) :
    (client.authorize placed authzs).1.placed = placed ∧
      StandsAfter before count (client.authorize placed authzs) := by
  induction authzs with
  | nil => exact ⟨rfl, ⟨_, rfl, rfl⟩, h⟩
  | cons authz rest ih =>
    rw [AcmeClient.authorize]
    split_ifs
    · exact ih
    · split
      · exact ⟨rfl, rfl⟩
      · exact ⟨rfl, rfl, h⟩

/-- The cleanup goes on with the record after those that are gone. -/
theorem standsAfter_cleanUp (mat : CertMaterial) (gone : List DnsRecord) {rest : List DnsRecord}
    (hplaced : placed = gone ++ rest)
    (h : ∀ n, count n = whilePlaced before placed n - countPlaced gone n) :
    StandsAfter before count (AcmeClient.cleanUp placed mat rest) := by
  cases rest with
  | nil =>
    rw [List.append_nil] at hplaced
    rw [← hplaced] at h
    exact ⟨rfl, h⟩
  | cons record rest => exact ⟨record, gone, rfl, hplaced, h⟩

/-- A call that is not one of the DNS provider is answered. -/
theorem standsAfter_reply (client : AcmeClient) {phase : Phase} {call : Call} {reply : Reply}
    (hawaits : phase.awaits call = true) (hreply : call.answeredBy reply = true)
    (h : count = whilePlaced before placed) :
    (client.issue.step ⟨phase, placed⟩ reply).1.placed = placed ∧
      StandsAfter before count (client.issue.step ⟨phase, placed⟩ reply) := by
  cases phase with
  | ordering =>
    cases call <;> cases hawaits
    cases reply <;> cases hreply
    next r =>
      cases r with
      | error e => exact ⟨rfl, rfl⟩
      | ok _ => exact ⟨rfl, ⟨_, rfl, rfl⟩, h⟩
  | authorizing =>
    cases call <;> cases hawaits
    cases reply <;> cases hreply
    next r =>
      cases r with
      | error e => exact ⟨rfl, rfl⟩
      | ok authzs => exact standsAfter_authorize h authzs
  | readying rest =>
    cases call <;> cases hawaits
    cases reply <;> cases hreply
    next r =>
      cases r with
      | error e => exact ⟨rfl, rfl⟩
      | ok _ => exact standsAfter_authorize h rest
  | refreshing rounds backoff =>
    cases call <;> cases hawaits
    cases reply <;> cases hreply
    next r =>
      cases r with
      | error e => exact ⟨rfl, rfl⟩
      | ok status =>
        cases status with
        | invalid error => exact ⟨rfl, rfl⟩
        | _ => exact ⟨rfl, ⟨_, rfl, rfl⟩, h⟩
  | backingOff rounds backoff =>
    cases call <;> cases hawaits
    cases reply <;> cases hreply
    cases rounds <;> exact ⟨rfl, ⟨_, rfl, rfl⟩, h⟩
  | requesting =>
    cases call <;> cases hawaits
    cases reply <;> cases hreply
    next r =>
      cases r with
      | error e => exact ⟨rfl, rfl⟩
      | ok _ => exact ⟨rfl, ⟨_, rfl, rfl⟩, h⟩
  | finalizing key =>
    cases call <;> cases hawaits
    cases reply <;> cases hreply
    next r =>
      cases r with
      | error e => exact ⟨rfl, rfl⟩
      | ok _ => exact ⟨rfl, ⟨_, rfl, rfl⟩, h⟩
  | polling key =>
    cases call <;> cases hawaits
    cases reply <;> cases hreply
    next r =>
      cases r with
      | error e => exact ⟨rfl, rfl⟩
      | ok pem =>
        cases pem with
        | none => exact ⟨rfl, ⟨_, rfl, rfl⟩, h⟩
        | some pem =>
          refine ⟨?_, standsAfter_cleanUp ⟨pem, key⟩ [] rfl fun n => ?_⟩
          · cases placed <;> rfl
          · rw [h]
            rfl
  | waiting key =>
    cases call <;> cases hawaits
    cases reply <;> cases hreply
    exact ⟨rfl, ⟨_, rfl, rfl⟩, h⟩
  | placing | deleting | returned => cases call <;> cases hawaits

/-- An order that nothing has disturbed. Without a token it has no record in place. -/
structure Undisturbed (api : ZoneApi ζ) (params : CloudflareParams) (before : String → Nat)
    (s : Order ζ) : Prop where
  stands : Stands before s.issue.placed (api.count s.zone) s.issue.phase s.pending
  token : s.issue.placed ≠ [] → ∃ token, params.tokenZone = .ok token

private theorem undisturbed_start (zone : ζ) :
    Undisturbed api params (api.count zone) (Order.start client zone) :=
  ⟨⟨⟨_, rfl, rfl⟩, rfl⟩, fun h => absurd rfl h⟩

/-- A record is placed. -/
theorem undisturbed_placing (hapi : api.Lawful) {record : DnsRecord} {url : String}
    {rest : List Authorization} {zone : ζ}
    (h : Undisturbed api params before
      ⟨⟨.placing record url rest, placed⟩, some (.upsertTxt record), zone⟩) :
    Undisturbed api params before ((order client api params).step
      ⟨⟨.placing record url rest, placed⟩, some (.upsertTxt record), zone⟩ (.dns .calm)).1 := by
  obtain ⟨⟨-, hcount⟩, htoken⟩ := h
  cases ht : params.tokenZone with
  | error e =>
    have hup : api.upsertTxt params record .calm zone = (.error e, zone) := by
      rw [ZoneApi.upsertTxt, ht]
    simp only [order, hup]
    exact ⟨rfl, htoken⟩
  | ok token =>
    obtain ⟨hok, hup⟩ := upsertTxt_calm hapi ht record zone
    simp only [order, hok]
    refine ⟨⟨⟨_, rfl, rfl⟩, ?_⟩, fun _ => ⟨token, ht⟩⟩
    ext n
    simp only at hcount
    rw [Order.resume, hup, hcount]
    exact (whilePlaced_snoc record n).symm

/-- A record is removed. -/
theorem undisturbed_deleting (hapi : api.Lawful) {record : DnsRecord} {mat : CertMaterial}
    {rest : List DnsRecord} {zone : ζ}
    (h : Undisturbed api params before
      ⟨⟨.deleting mat rest, placed⟩, some (.deleteTxt record), zone⟩) :
    Undisturbed api params before ((order client api params).step
      ⟨⟨.deleting mat rest, placed⟩, some (.deleteTxt record), zone⟩ (.dns .calm)).1 := by
  obtain ⟨⟨record', gone, hpending, hplaced, hcount⟩, htoken⟩ := h
  obtain rfl : record = record' := by injection hpending with hcall; injection hcall
  simp only at hplaced hcount htoken
  obtain ⟨token, ht⟩ := htoken (by rw [hplaced]; simp)
  have hafter : StandsAfter before (api.count (api.deleteTxt params record .calm zone).2)
      (AcmeClient.cleanUp placed mat rest) := by
    refine standsAfter_cleanUp mat (gone ++ [record]) (by rw [hplaced]; simp) fun n => ?_
    rw [deleteTxt_calm hapi ht, hcount, countPlaced_snoc]
    split_ifs <;> omega
  have hkept : (AcmeClient.cleanUp placed mat rest).1.placed = placed := by cases rest <;> rfl
  refine ⟨?_, fun _ => ⟨token, ht⟩⟩
  simp only [order, Order.resume]
  exact hafter

private theorem placing_of_upsertTxt {phase : Phase} {record : DnsRecord}
    (h : Stands before placed count phase (some (.upsertTxt record))) :
    ∃ url rest, phase = .placing record url rest := by
  cases phase with
  | placing record' url rest =>
    obtain ⟨hpending, -⟩ := h
    injection hpending with hcall
    injection hcall with hrecord
    exact ⟨url, rest, by rw [hrecord]⟩
  | deleting mat rest =>
    obtain ⟨_, _, hpending, -⟩ := h
    cases hpending
  | returned result =>
    cases result with
    | ok mat => cases h.1
    | error e => cases h
  | _ =>
    obtain ⟨⟨call, hcall, hawaits⟩, -⟩ := h
    obtain rfl := Option.some.inj hcall
    cases hawaits

private theorem deleting_of_deleteTxt {phase : Phase} {record : DnsRecord}
    (h : Stands before placed count phase (some (.deleteTxt record))) :
    ∃ mat rest, phase = .deleting mat rest := by
  cases phase with
  | deleting mat rest => exact ⟨mat, rest, rfl⟩
  | placing record' url rest => cases h.1
  | returned result =>
    cases result with
    | ok mat => cases h.1
    | error e => cases h
  | _ =>
    obtain ⟨⟨call, hcall, hawaits⟩, -⟩ := h
    obtain rfl := Option.some.inj hcall
    cases hawaits

private theorem awaits_of_answeredBy {phase : Phase} {call : Call} {reply : Reply}
    (h : Stands before placed count phase (some call)) (hreply : call.answeredBy reply = true) :
    phase.awaits call = true ∧ count = whilePlaced before placed := by
  cases phase with
  | placing record url rest =>
    obtain rfl := Option.some.inj h.1
    cases hreply
  | deleting mat rest =>
    obtain ⟨_, _, hpending, -⟩ := h
    obtain rfl := Option.some.inj hpending
    cases hreply
  | returned result =>
    cases result with
    | ok mat => cases h.1
    | error e => cases h
  | _ =>
    obtain ⟨⟨call', hcall, hawaits⟩, hcount⟩ := h
    obtain rfl := Option.some.inj hcall
    exact ⟨hawaits, hcount⟩

private theorem undisturbed_step (hapi : api.Lawful) {s : Order ζ}
    (h : Undisturbed api params before s)
    {e : OrderEvent} (hcalm : ∀ w, e = .dns w → w = .calm) :
    Undisturbed api params before ((order client api params).step s e).1 := by
  obtain ⟨⟨phase, placed⟩, pending, zone⟩ := s
  cases pending with
  | none => exact h
  | some call =>
    cases e with
    | dns w =>
      obtain rfl := hcalm w rfl
      cases call with
      | upsertTxt record =>
        obtain ⟨url, rest, rfl⟩ := placing_of_upsertTxt h.stands
        exact undisturbed_placing hapi h
      | deleteTxt record =>
        obtain ⟨mat, rest, rfl⟩ := deleting_of_deleteTxt h.stands
        exact undisturbed_deleting hapi h
      | _ => exact h
    | reply r =>
      have hstep : (order client api params).step ⟨⟨phase, placed⟩, some call, zone⟩ (.reply r) =
          if call.answeredBy r then Order.resume client ⟨⟨phase, placed⟩, some call, zone⟩ r zone
          else (⟨⟨phase, placed⟩, some call, zone⟩, []) := by
        cases call <;> rfl
      rw [hstep]
      split_ifs with hanswered
      · obtain ⟨hawaits, hcount⟩ := awaits_of_answeredBy h.stands hanswered
        obtain ⟨hkept, hafter⟩ := standsAfter_reply client hawaits hanswered hcount
        exact ⟨hafter, fun hne => h.token (hkept ▸ hne)⟩
      · exact h

/-- When an undisturbed order has succeeded, each name has one record less for each record placed
there, of those it had, or of the one that it was given. -/
theorem zone_after_order (hapi : api.Lawful) {zone : ζ} {es : List OrderEvent}
    (hcalm : ∀ w, .dns w ∈ es → w = .calm) {mat : CertMaterial}
    (h : ((order client api params).run (.start client zone) es).issue.phase =
      .returned (.ok mat)) (n : String) :
    api.count ((order client api params).run (.start client zone) es).zone n =
      whilePlaced (api.count zone)
        ((order client api params).run (.start client zone) es).issue.placed n -
      countPlaced ((order client api params).run (.start client zone) es).issue.placed n := by
  have hrun : Undisturbed api params (api.count zone)
      ((order client api params).run (.start client zone) es) := by
    refine Machine.run_invariant (I := Undisturbed api params (api.count zone))
      (P := fun e => ∀ w, e = OrderEvent.dns w → w = .calm) _
      (fun s e hs he => undisturbed_step hapi hs he) (undisturbed_start zone) ?_
    rintro e he w rfl
    exact hcalm w he
  have hstands := hrun.stands
  rw [h] at hstands
  exact hstands.2 n

/-- An undisturbed order that succeeds restores the number of records of every name exactly if the
names it used had none. -/
theorem restores_iff (hapi : api.Lawful) {zone : ζ} {es : List OrderEvent}
    (hcalm : ∀ w, .dns w ∈ es → w = .calm) {mat : CertMaterial}
    (h : ((order client api params).run (.start client zone) es).issue.phase =
      .returned (.ok mat)) :
    (∀ n, api.count ((order client api params).run (.start client zone) es).zone n =
        api.count zone n) ↔
      ∀ r ∈ ((order client api params).run (.start client zone) es).issue.placed,
        api.count zone r.name = 0 := by
  have hzone := zone_after_order hapi hcalm h
  constructor
  · intro hsame r hr
    have hplaced : 0 < countPlaced
        ((order client api params).run (.start client zone) es).issue.placed r.name :=
      List.countP_pos_iff.mpr ⟨r, hr, decide_eq_true rfl⟩
    have hn := (hzone r.name).symm.trans (hsame r.name)
    rw [whilePlaced, if_neg hplaced.ne'] at hn
    omega
  · intro hnone n
    rw [hzone, whilePlaced]
    split_ifs with hk
    · rw [hk, Nat.sub_zero]
    · obtain ⟨r, hr, hname⟩ := List.countP_pos_iff.mp (Nat.pos_of_ne_zero hk)
      have hzero := hnone r hr
      rw [of_decide_eq_true hname] at hzero
      omega

/-- A token and the id of a zone. -/
def sampleParams : CloudflareParams := ⟨some "token", some "zone"⟩

/-- One record is placed, and the order goes through. -/
def undisturbedEvents : List OrderEvent :=
  [.reply (.newOrder (.ok ())),
    .reply (.authorizations (.ok [⟨.pending, "hub.example", [⟨.dns01, "/chall/1", "k"⟩]⟩])),
    .dns .calm, .reply (.setChallengeReady (.ok ())), .reply (.refresh (.ok .ready)),
    .reply (.makeRequest (.ok ⟨[1], [2]⟩)), .reply (.finalize (.ok ())),
    .reply (.certificate (.ok (some [3]))), .dns .calm]

/-- The order on an empty zone restores it. -/
theorem undisturbedEvents_restores_iff :
    (∀ n, listZone.count ((order sampleClient listZone sampleParams).run
        (.start sampleClient emptyZone) undisturbedEvents).zone n = listZone.count emptyZone n) ↔
      ∀ r ∈ ((order sampleClient listZone sampleParams).run (.start sampleClient emptyZone)
        undisturbedEvents).issue.placed, listZone.count emptyZone r.name = 0 := by
  have hissued : ((order sampleClient listZone sampleParams).run (.start sampleClient emptyZone)
      undisturbedEvents).issue.phase = .returned (.ok ⟨[3], [2]⟩) := rfl
  refine restores_iff listZone_lawful (fun w hw => ?_) hissued
  simp only [undisturbedEvents, List.mem_cons, reduceCtorEq, OrderEvent.dns.injEq,
    List.not_mem_nil, or_false, false_or] at hw
  rcases hw with hw | hw <;> exact hw

end Undisturbed

section Frame

/-- Everything that `issue` removes or has in place it has placed, or tried to. -/
structure Issue.Owns (s : Issue) (calls : List Call) : Prop where
  placed : ∀ r ∈ s.placed, .upsertTxt r ∈ calls
  placing : ∀ r url rest, s.phase = .placing r url rest → .upsertTxt r ∈ calls
  deleting : ∀ mat rest, s.phase = .deleting mat rest → ∀ r ∈ rest, .upsertTxt r ∈ calls
  deleted : ∀ r, .deleteTxt r ∈ calls → .upsertTxt r ∈ calls

variable {client : AcmeClient} {placed : List DnsRecord} {calls : List Call}

/-- A phase that has no record of its own, and a call that removes none. -/
theorem Issue.Owns.move {s : Issue} (h : s.Owns calls) {phase : Phase} {more : List Call}
    (hplacing : ∀ r url rest, phase ≠ .placing r url rest)
    (hdeleting : ∀ mat rest, phase ≠ .deleting mat rest) (hmore : more.filterMap removes = []) :
    (⟨phase, s.placed⟩ : Issue).Owns (calls ++ more) where
  placed r hr := List.mem_append_left _ (h.placed r hr)
  placing r url rest hp := absurd hp (hplacing r url rest)
  deleting mat rest hp := absurd hp (hdeleting mat rest)
  deleted r hr := by
    rcases List.mem_append.mp hr with hr | hr
    · exact List.mem_append_left _ (h.deleted r hr)
    · have hmem : r ∈ more.filterMap removes := List.mem_filterMap.mpr ⟨_, hr, rfl⟩
      rw [hmore] at hmem
      cases hmem

/-- The next authorization is looked at. -/
theorem Issue.Owns.authorize {s : Issue} (h : s.Owns calls) (authzs : List Authorization) :
    (client.authorize s.placed authzs).1.Owns (calls ++ (client.authorize s.placed authzs).2) := by
  induction authzs with
  | nil => exact h.move (fun _ _ _ => Phase.noConfusion) (fun _ _ => Phase.noConfusion) rfl
  | cons authz rest ih =>
    rw [AcmeClient.authorize]
    split_ifs
    · exact ih
    · split
      · exact h.move (fun _ _ _ => Phase.noConfusion) (fun _ _ => Phase.noConfusion) rfl
      next challenge _ =>
        refine ⟨fun r hr => List.mem_append_left _ (h.placed r hr), ?_,
          fun _ _ hp => Phase.noConfusion hp, fun r hr => ?_⟩
        · intro r url rest hp
          injection hp with hr
          rw [hr]
          exact List.mem_append_right _ (List.mem_singleton_self _)
        · rcases List.mem_append.mp hr with hr | hr
          · exact List.mem_append_left _ (h.deleted r hr)
          · cases List.mem_singleton.mp hr

/-- The cleanup deletes records that were placed. -/
theorem Issue.Owns.cleanUp {s : Issue} (h : s.Owns calls) (mat : CertMaterial)
    {records : List DnsRecord} (hrecords : ∀ r ∈ records, .upsertTxt r ∈ calls) :
    (AcmeClient.cleanUp s.placed mat records).1.Owns
      (calls ++ (AcmeClient.cleanUp s.placed mat records).2) := by
  cases records with
  | nil => exact h.move (fun _ _ _ => Phase.noConfusion) (fun _ _ => Phase.noConfusion) rfl
  | cons record rest =>
    refine ⟨fun r hr => List.mem_append_left _ (h.placed r hr),
      fun _ _ _ hp => Phase.noConfusion hp, ?_, fun r hr => ?_⟩
    · intro mat' rest' hp r hr
      injection hp with _ hrest
      rw [← hrest] at hr
      exact List.mem_append_left _ (hrecords r (List.mem_cons_of_mem _ hr))
    · rcases List.mem_append.mp hr with hr | hr
      · exact List.mem_append_left _ (h.deleted r hr)
      · obtain rfl : r = record := by
          have hcall := List.mem_singleton.mp hr
          injection hcall
        exact List.mem_append_left _ (hrecords r (List.mem_cons_self ..))

private theorem Issue.owns_step {s : Issue} (h : s.Owns calls) (reply : Reply) :
    (client.issue.step s reply).1.Owns (calls ++ (client.issue.step s reply).2) := by
  have hidle : s.Owns (calls ++ []) := by rwa [List.append_nil]
  have hmove : ∀ {phase more}, (∀ r url rest, phase ≠ Phase.placing r url rest) →
      (∀ mat rest, phase ≠ Phase.deleting mat rest) → more.filterMap removes = [] →
      (⟨phase, s.placed⟩ : Issue).Owns (calls ++ more) := h.move
  obtain ⟨phase, placed⟩ := s
  unfold AcmeClient.issue
  dsimp only at hmove ⊢
  split
  case h_4 authzs => exact h.authorize authzs
  case h_6 record url rest _ =>
    refine ⟨fun r hr => List.mem_append_left _ ?_, fun _ _ _ hp => Phase.noConfusion hp,
      fun _ _ hp => Phase.noConfusion hp, fun r hr => ?_⟩
    · rcases List.mem_append.mp hr with hr | hr
      · exact h.placed r hr
      · rw [List.mem_singleton.mp hr]
        exact h.placing record url rest rfl
    · rcases List.mem_append.mp hr with hr | hr
      · exact List.mem_append_left _ (h.deleted r hr)
      · cases List.mem_singleton.mp hr
  case h_8 rest _ => exact h.authorize rest
  case h_10 =>
    split <;> exact hmove (fun _ _ _ => Phase.noConfusion) (fun _ _ => Phase.noConfusion) rfl
  case h_19 key pem => exact h.cleanUp ⟨pem, key⟩ h.placed
  case h_21 mat rest _ => exact h.cleanUp mat (h.deleting mat rest rfl)
  case h_22 => exact hidle
  all_goals exact hmove (fun _ _ _ => Phase.noConfusion) (fun _ _ => Phase.noConfusion) rfl

variable {ζ : Type*} {api : ZoneApi ζ} {params : CloudflareParams}

/-- The order waits for a call that it has made, and owns what it works on. -/
structure Order.Sound (s : Order ζ) (calls : List Call) : Prop where
  pending : ∀ call ∈ s.pending, call ∈ calls
  owns : s.issue.Owns calls

/-- An answer arrives. -/
theorem Order.Sound.resume {s : Order ζ} (h : s.Sound calls) (r : Reply) (zone : ζ) :
    (s.resume client r zone).1.Sound (calls ++ (s.resume client r zone).2) where
  pending _ hcall := List.mem_append_right _ (List.mem_of_head? hcall)
  owns := Issue.owns_step h.owns r

/-- A step keeps that, and the zone's records of names that were never placed at. -/
theorem sound_step (client : AcmeClient) (params : CloudflareParams) (hapi : api.Lawful)
    {s : Order ζ} (h : s.Sound calls) (e : OrderEvent) :
    ((order client api params).step s e).1.Sound
        (calls ++ ((order client api params).step s e).2) ∧
      ∀ entry : ZoneRecord, (∀ r, .upsertTxt r ∈ calls → entry.name ≠ r.name) →
        (entry ∈ api.records ((order client api params).step s e).1.zone ↔
          entry ∈ api.records s.zone) := by
  have hidle : s.Sound (calls ++ []) := by rwa [List.append_nil]
  simp only [order]
  split
  next record w hp =>
    refine ⟨h.resume _ _, fun entry hentry => ?_⟩
    exact (upsertTxt_moves params record w s.zone).mem_iff hapi
      (hentry record (h.pending _ hp))
  next record w hp =>
    refine ⟨h.resume _ _, fun entry hentry => ?_⟩
    exact (deleteTxt_moves params record w s.zone).mem_iff hapi
      (hentry record (h.owns.deleted record (h.pending _ hp)))
  · split_ifs
    · exact ⟨h.resume _ _, fun _ _ => Iff.rfl⟩
    · exact ⟨hidle, fun _ _ => Iff.rfl⟩
  · exact ⟨hidle, fun _ _ => Iff.rfl⟩

/-- The order begins. -/
theorem sound_start (zone : ζ) :
    (Order.start client zone).Sound [.newOrder client.domain] where
  pending _ hcall := List.mem_singleton.mpr (Option.some.inj hcall).symm
  owns := ⟨fun _ hr => (List.not_mem_nil hr).elim, fun _ _ _ hp => Phase.noConfusion hp,
    fun _ _ hp => Phase.noConfusion hp, fun _ hr => Call.noConfusion (List.mem_singleton.mp hr)⟩

/-- Whatever the API answers and wherever the order ends, the records of a name it does not try to
place a record at are those that were there. -/
theorem other_names_untouched (hapi : api.Lawful) (zone : ζ) (es : List OrderEvent)
    {entry : ZoneRecord}
    (hentry : ∀ r, .upsertTxt r ∈ (order client api params).sent (.start client zone) es →
      entry.name ≠ r.name) :
    entry ∈ api.records ((order client api params).run (.start client zone) es).zone ↔
      entry ∈ api.records zone := by
  have hrun : ((order client api params).run (.start client zone) es).Sound
        (.newOrder client.domain :: (order client api params).sent (.start client zone) es) ∧
      (entry ∈ api.records ((order client api params).run (.start client zone) es).zone ↔
        entry ∈ api.records zone) := by
    induction es using List.reverseRecOn with
    | nil => exact ⟨sound_start zone, Iff.rfl⟩
    | append_singleton es e ih =>
      rw [Machine.sent_snoc] at hentry ⊢
      obtain ⟨hsound, hsame⟩ := ih fun r hr => hentry r (List.mem_append_left _ hr)
      obtain ⟨hstep, hmem⟩ := sound_step client params hapi hsound e
      rw [Machine.run_snoc]
      refine ⟨hstep, (hmem entry fun r hr => ?_).trans hsame⟩
      rcases List.mem_cons.mp hr with hr | hr
      · cases hr
      · exact hentry r (List.mem_append_left _ hr)
  exact hrun.2

/-- The record of the mail service is still there after an order that broke off. -/
theorem mail_untouched :
    mailRecord ∈ listZone.records ((order sampleClient listZone sampleParams).run
        (.start sampleClient mailZone) (undisturbedEvents.take 3)).zone ↔
      mailRecord ∈ listZone.records mailZone := by
  refine other_names_untouched listZone_lawful mailZone _ fun r hr => ?_
  obtain rfl : r = ⟨"_acme-challenge.hub.example", "k", 60⟩ := by
    have hsent : (order sampleClient listZone sampleParams).sent (.start sampleClient mailZone)
        (undisturbedEvents.take 3) = [.authorizations,
          .upsertTxt ⟨"_acme-challenge." ++ "hub.example", "k", 60⟩,
          .setChallengeReady "/chall/1"] := rfl
    rw [hsent] at hr
    simpa using hr
  decide

end Frame

end NdnFwd.Acme
