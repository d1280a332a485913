import NdnFwd.Models.Acme.Issue

/-!
# When an order is finalized

`AcmeClient::issue` refreshes an order at most thirty times. It leaves the loop when the order is
ready, and also when the last round has passed, and then it goes on in the same way: an order that
is still pending is finalized as if it were ready.
-/

namespace NdnFwd.Acme

/-- The order may be finalized. -/
def OrderStatus.allowsFinalize : OrderStatus → Bool
  | .ready | .valid => true
  | .pending | .processing | .invalid _ => false

/-- The status that a step observes. -/
def observes : Issue × Reply → Option OrderStatus
  | (⟨.refreshing .., _⟩, .refresh (.ok status)) => some status
  | _ => none

/-- The step ends the last round of refreshing, of an order that was not ready in it. -/
def exhausts : Issue × Reply → Bool
  | (⟨.backingOff 0 _, _⟩, .slept) => true
  | _ => false

/-- The key pair and the request have been made. -/
def requests : Issue × Reply → Bool
  | (⟨.requesting, _⟩, .makeRequest (.ok _)) => true
  | _ => false

namespace AcmeClient

variable (client : AcmeClient) (replies : List Reply)

/-- The status that was observed last. -/
def lastStatus : Option OrderStatus :=
  ((client.issue.visits .start replies).filterMap observes).getLast?

/-- Only an order whose last status is ready or valid is finalized, and one that is still pending
when the rounds are used up ends in an error. -/
structure FinalizesReady : Prop where
  ready : ∀ js reply csr, js ++ [reply] <+: replies →
    .finalize csr ∈ (client.issue.step (client.issue.run .start js) reply).2 →
      ∃ status ∈ client.lastStatus js, status.allowsFinalize = true
  exhausted : (∃ v ∈ client.issue.visits .start replies, exhausts v = true) →
    (∀ csr, .finalize csr ∉ client.issue.sent .start replies) ∧
      ∀ result, (client.issue.run .start replies).phase = .returned result →
        ∃ e, result = .error e

/-- If the rounds are used up, no request is made. -/
def PollsInTime : Prop :=
  ∀ v ∈ client.issue.visits .start replies, exhausts v = true →
    ∀ w ∈ client.issue.visits .start replies, requests w = false

instance : Decidable (client.PollsInTime replies) :=
  inferInstanceAs (Decidable (∀ v ∈ client.issue.visits .start replies, exhausts v = true →
    ∀ w ∈ client.issue.visits .start replies, requests w = false))

end AcmeClient

/-- The phases after a request has been made, up to a success. -/
def Phase.requested : Phase → Bool
  | .finalizing _ | .polling _ | .waiting _ | .deleting .. | .returned (.ok _) => true
  | _ => false

/-- Whether this is the call that finalizes the order. -/
def Call.finalizes : Call → Bool
  | .finalize _ => true
  | _ => false

/-- What a step from `v` to `a` shows about the polling. -/
structure Polls (v : Issue × Reply) (a : Issue × List Call) : Prop where
  requested : a.1.phase.requested = true → v.1.phase.requested = true ∨ requests v = true
  requesting : a.1.phase = .requesting → (v.1.phase = .requesting ∧ observes v = none) ∨
    exhausts v = true ∨ ∃ status ∈ observes v, status.allowsFinalize = true
  finalizes : ∀ csr, .finalize csr ∈ a.2 → requests v = true

section Steps

variable {client : AcmeClient} {v : Issue × Reply} {a : Issue × List Call}

private theorem not_mem_of_finalizes {calls : List Call} (h : calls.any Call.finalizes = false)
    (csr : Bytes) : .finalize csr ∉ calls := by
  intro hmem
  have hany : calls.any Call.finalizes = true := List.any_eq_true.mpr ⟨_, hmem, rfl⟩
  rw [h] at hany
  cases hany

/-- A step that ends before or after the request and finalizes nothing. -/
theorem Polls.quiet (hphase : a.1.phase.requested = false ∨ v.1.phase.requested = true)
    (hne : a.1.phase ≠ .requesting) (hcalls : a.2.any Call.finalizes = false) : Polls v a where
  requested h := by
    rcases hphase with hfalse | hbefore
    · rw [hfalse] at h
      cases h
    · exact Or.inl hbefore
  requesting h := absurd h hne
  finalizes csr h := absurd h (not_mem_of_finalizes hcalls csr)

/-- An outcome that nothing waits for. -/
theorem Polls.idle (h : v.1.phase ≠ .requesting ∨ observes v = none) : Polls v (v.1, []) where
  requested := Or.inl
  requesting hs := Or.inl ⟨hs, h.resolve_left fun hne => hne hs⟩
  finalizes _ h := absurd h List.not_mem_nil

/-- Where the loop over the authorizations leads. -/
theorem Polls.authorize (v : Issue × Reply) (placed : List DnsRecord)
    (authzs : List Authorization) : Polls v (client.authorize placed authzs) := by
  induction authzs with
  | nil => exact .quiet (Or.inl rfl) Phase.noConfusion rfl
  | cons authz rest ih =>
    rw [AcmeClient.authorize]
    split_ifs
    · exact ih
    · cases AcmeClient.findDns01 authz.challenges with
      | none => exact .quiet (Or.inl rfl) Phase.noConfusion rfl
      | some challenge => exact .quiet (Or.inl rfl) Phase.noConfusion rfl

/-- Where the cleanup leads. -/
theorem Polls.cleanUp (h : v.1.phase.requested = true) (placed records : List DnsRecord)
    (mat : CertMaterial) : Polls v (AcmeClient.cleanUp placed mat records) := by
  cases records <;> exact .quiet (Or.inr h) Phase.noConfusion rfl

/-- Where the polling loop leads. -/
theorem Polls.makeRequest (placed : List DnsRecord)
    (h : exhausts v = true ∨ ∃ status ∈ observes v, status.allowsFinalize = true) :
    Polls v (client.makeRequest placed) where
  requested h := by cases h
  requesting _ := Or.inr h
  finalizes csr h := absurd h (not_mem_of_finalizes rfl csr)

/-- Every step of an order. -/
theorem polls_step (client : AcmeClient) (v : Issue × Reply) :
    Polls v (client.issue.step v.1 v.2) := by
  obtain ⟨⟨phase, placed⟩, reply⟩ := v
  cases phase with
  | ordering =>
    cases reply with
    | newOrder r => cases r <;> exact .quiet (Or.inl rfl) Phase.noConfusion rfl
    | _ => exact .idle (Or.inr rfl)
  | authorizing =>
    cases reply with
    | authorizations r =>
      cases r with
      | error e => exact .quiet (Or.inl rfl) Phase.noConfusion rfl
      | ok authzs => exact .authorize _ placed authzs
    | _ => exact .idle (Or.inr rfl)
  | placing record url rest =>
    cases reply with
    | upsertTxt r => cases r <;> exact .quiet (Or.inl rfl) Phase.noConfusion rfl
    | _ => exact .idle (Or.inr rfl)
  | readying rest =>
    cases reply with
    | setChallengeReady r =>
      cases r with
      | error e => exact .quiet (Or.inl rfl) Phase.noConfusion rfl
      | ok _ => exact .authorize _ placed rest
    | _ => exact .idle (Or.inr rfl)
  | refreshing rounds backoff =>
    cases reply with
    | refresh r =>
      cases r with
      | error e => exact .quiet (Or.inl rfl) Phase.noConfusion rfl
      | ok status =>
        cases status with
        | ready | valid => exact .makeRequest placed (Or.inr ⟨_, rfl, rfl⟩)
        | _ => exact .quiet (Or.inl rfl) Phase.noConfusion rfl
    | _ => exact .idle (Or.inl Phase.noConfusion)
  | backingOff rounds backoff =>
    cases reply with
    | slept =>
      cases rounds with
      | zero => exact .makeRequest placed (Or.inl rfl)
      | succ rounds => exact .quiet (Or.inl rfl) Phase.noConfusion rfl
    | _ => cases rounds <;> exact .idle (Or.inr rfl)
  | requesting =>
    cases reply with
    | makeRequest r =>
      cases r with
      | error e => exact .quiet (Or.inl rfl) Phase.noConfusion rfl
      | ok r =>
        exact ⟨fun _ => Or.inr rfl, fun h => (by cases h), fun _ _ => rfl⟩
    | _ => exact .idle (Or.inr rfl)
  | finalizing key =>
    cases reply with
    | finalize r => cases r <;> exact .quiet (Or.inr rfl) Phase.noConfusion rfl
    | _ => exact .idle (Or.inr rfl)
  | polling key =>
    cases reply with
    | certificate r =>
      cases r with
      | error e => exact .quiet (Or.inr rfl) Phase.noConfusion rfl
      | ok pem =>
        cases pem with
        | none => exact .quiet (Or.inr rfl) Phase.noConfusion rfl
        | some pem => exact .cleanUp rfl placed placed _
    | _ => exact .idle (Or.inr rfl)
  | waiting key =>
    cases reply with
    | slept => exact .quiet (Or.inr rfl) Phase.noConfusion rfl
    | _ => exact .idle (Or.inr rfl)
  | deleting mat rest =>
    cases reply with
    | deleteTxt r => exact .cleanUp rfl placed rest mat
    | _ => exact .idle (Or.inr rfl)
  | returned result => exact .idle (Or.inr rfl)

end Steps

section Runs

variable {client : AcmeClient}

private theorem lastStatus_snoc (replies : List Reply) (reply : Reply) :
    client.lastStatus (replies ++ [reply]) =
      (observes (client.issue.run .start replies, reply)).or (client.lastStatus replies) := by
  rw [AcmeClient.lastStatus, Machine.visits_append, List.filterMap_append, List.getLast?_append,
    ← AcmeClient.lastStatus]
  cases hobs : observes (client.issue.run .start replies, reply) <;>
    simp [Machine.visits, hobs]

/-- A request is made for a ready order, unless the rounds were used up. -/
theorem requesting_run (replies : List Reply)
    (h : (client.issue.run .start replies).phase = .requesting) :
    (∃ v ∈ client.issue.visits .start replies, exhausts v = true) ∨
      ∃ status ∈ client.lastStatus replies, status.allowsFinalize = true := by
  induction replies using List.reverseRecOn with
  | nil => cases h
  | append_singleton replies reply ih =>
    rw [Machine.run_snoc] at h
    have hlast := client.issue.mem_visits_snoc .start replies reply
    rw [lastStatus_snoc]
    rcases (polls_step client (_, reply)).requesting h with
      ⟨hbefore, hnone⟩ | hexhausts | ⟨status, hstatus, hallows⟩
    · rw [hnone, Option.none_or]
      rcases ih hbefore with ⟨v, hv, hexhausts⟩ | hready
      · exact Or.inl ⟨v, client.issue.mem_visits_of_isPrefix (List.prefix_append _ _) hv, hexhausts⟩
      · exact Or.inr hready
    · exact Or.inl ⟨_, hlast, hexhausts⟩
    · rw [hstatus, Option.some_or]
      exact Or.inr ⟨status, rfl, hallows⟩

/-- An order is in a later phase only if a request was made. -/
theorem requested_run (replies : List Reply)
    (h : (client.issue.run .start replies).phase.requested = true) :
    ∃ w ∈ client.issue.visits .start replies, requests w = true := by
  induction replies using List.reverseRecOn with
  | nil => cases h
  | append_singleton replies reply ih =>
    rw [Machine.run_snoc] at h
    rcases (polls_step client (_, reply)).requested h with hbefore | hrequests
    · obtain ⟨w, hw, hrequests⟩ := ih hbefore
      exact ⟨w, client.issue.mem_visits_of_isPrefix (List.prefix_append _ _) hw, hrequests⟩
    · exact ⟨_, client.issue.mem_visits_snoc .start replies reply, hrequests⟩

/-- An order is finalized as it should be exactly when no request is made after the rounds have
been used up. -/
theorem finalizesReady_iff (client : AcmeClient) (replies : List Reply) :
    client.FinalizesReady replies ↔ client.PollsInTime replies := by
  constructor
  · intro h v hv hexhausts w hw
    obtain ⟨⟨phase, placed⟩, reply⟩ := w
    by_contra hrequests
    rw [Bool.not_eq_false] at hrequests
    unfold requests at hrequests
    split at hrequests
    next s r heq =>
      cases heq
      apply (h.exhausted ⟨v, hv, hexhausts⟩).1 r.csr
      exact (client.issue.mem_sent_iff ..).mpr ⟨_, hw, List.mem_singleton_self _⟩
    next => cases hrequests
  · intro h
    constructor
    · intro js reply csr hjs hcalls
      have hv := client.issue.mem_visits_of_isPrefix hjs
        (client.issue.mem_visits_snoc .start js reply)
      have hrequests := (polls_step client (_, reply)).finalizes csr hcalls
      have hphase : (client.issue.run .start js).phase = .requesting := by
        unfold requests at hrequests
        split at hrequests
        next heq => rw [(Prod.mk.inj heq).1]
        next => cases hrequests
      rcases requesting_run js hphase with ⟨w, hw, hexhausts⟩ | hready
      · have hw' := client.issue.mem_visits_of_isPrefix ((List.prefix_append js _).trans hjs) hw
        rw [h w hw' hexhausts _ hv] at hrequests
        cases hrequests
      · exact hready
    · rintro ⟨v, hv, hexhausts⟩
      refine ⟨fun csr hcsr => ?_, fun result hresult => ?_⟩
      · obtain ⟨w, hw, hcalls⟩ := (client.issue.mem_sent_iff ..).mp hcsr
        have hrequests := (polls_step client w).finalizes csr hcalls
        rw [h v hv hexhausts w hw] at hrequests
        cases hrequests
      · cases result with
        | error e => exact ⟨e, rfl⟩
        | ok mat =>
          obtain ⟨w, hw, hrequests⟩ := requested_run replies (by rw [hresult]; rfl)
          rw [h v hv hexhausts w hw] at hrequests
          cases hrequests

end Runs

section Samples

/-- An order that is ready in the second round. -/
theorem issuing_finalizesReady : sampleClient.FinalizesReady (placingReplies ++ issuingReplies) :=
  (finalizesReady_iff sampleClient (placingReplies ++ issuingReplies)).mpr (by decide)

/-- An order without authorizations that is pending in all thirty rounds. -/
def pendingReplies : List Reply :=
  [.newOrder (.ok ()), .authorizations (.ok [])] ++
    (List.replicate 30 [.refresh (.ok .pending), .slept]).flatten ++ [.makeRequest (.ok ⟨[1], [2]⟩)]

/-- It is finalized nevertheless. -/
theorem pending_not_finalizesReady : ¬sampleClient.FinalizesReady pendingReplies := by
  intro h
  have hnone := (h.exhausted (by decide)).1 [1]
  revert hnone
  decide

end Samples

end NdnFwd.Acme
