import NdnFwd.Core.Custody
import NdnFwd.Models.Acme.Cache

/-!
# One order of a certificate

`AcmeClient::issue` as a task that is resumed by the outcome of each call it makes. It places a
record for every authorization that is pending, and removes them in a loop at its very end. Any
error on the way returns at once, and leaves behind what has been placed.
-/

namespace NdnFwd.Acme

/-- `AuthorizationStatus`. -/
inductive AuthorizationStatus
  | pending | valid | invalid | deactivated | expired | revoked
  deriving DecidableEq, Repr

/-- `ChallengeType`. -/
inductive ChallengeType
  | http01 | dns01 | tlsAlpn01
  deriving DecidableEq, Repr

/-- `Challenge`. -/
structure Challenge where
  type : ChallengeType
  url : String
  token : String
  deriving DecidableEq, Repr

/-- An authorization; its identifier is a domain. -/
structure Authorization where
  status : AuthorizationStatus
  identifier : String
  challenges : List Challenge
  deriving DecidableEq, Repr

/-- The status of an order; an invalid one comes with its error, as it is shown. -/
inductive OrderStatus
  | pending | ready | processing | valid
  | invalid (error : String)
  deriving DecidableEq, Repr

/-- A TXT record, with its time to live. -/
structure DnsRecord where
  name : String
  value : String
  ttl : Nat
  deriving DecidableEq, Repr

/-- The errors of `issue`. -/
inductive AcmeError
  | acme (error : String)
  | rcgen (error : String)
  | dns (error : String)
  | noDns01
  | orderFailed (message : String)
  deriving DecidableEq, Repr

/-- A key pair and the request made with it. -/
structure CertRequest where
  csr : Bytes
  privateKeyPem : Bytes
  deriving DecidableEq, Repr

/-- The client, and how its account answers a challenge. -/
structure AcmeClient where
  domain : String
  /-- `order.key_authorization(challenge).dns_value()`. -/
  dnsValue : Challenge → String

/-- A call that `issue` makes. Delays are in seconds. -/
inductive Call
  | newOrder (domain : String)
  | authorizations
  | upsertTxt (record : DnsRecord)
  | setChallengeReady (url : String)
  | refresh
  | sleep (delay : Nat)
  | makeRequest (domain : String)
  | finalize (csr : Bytes)
  | certificate
  | deleteTxt (record : DnsRecord)
  deriving DecidableEq, Repr

/-- The outcome of a call. -/
inductive Reply
  | newOrder (r : Except String Unit)
  | authorizations (r : Except String (List Authorization))
  | upsertTxt (r : Except String Unit)
  | setChallengeReady (r : Except String Unit)
  | refresh (r : Except String OrderStatus)
  | slept
  | makeRequest (r : Except String CertRequest)
  | finalize (r : Except String Unit)
  | certificate (r : Except String (Option Bytes))
  | deleteTxt (r : Except String Unit)

/-- The call that `issue` waits for, with the variables that are still in use. -/
inductive Phase
  | ordering
  | authorizing
  | placing (record : DnsRecord) (url : String) (rest : List Authorization)
  | readying (rest : List Authorization)
  /-- With the rounds that are left after this one. -/
  | refreshing (rounds backoff : Nat)
  | backingOff (rounds backoff : Nat)
  | requesting
  | finalizing (privateKeyPem : Bytes)
  | polling (privateKeyPem : Bytes)
  | waiting (privateKeyPem : Bytes)
  | deleting (mat : CertMaterial) (rest : List DnsRecord)
  | returned (result : Except AcmeError CertMaterial)

/-- `issue` under way. -/
structure Issue where
  phase : Phase
  /-- `placed_records`. -/
  placed : List DnsRecord

namespace AcmeClient

variable (client : AcmeClient)

/-- `.challenges.iter().find(|c| c.r#type == ChallengeType::Dns01)`. -/
def findDns01 (challenges : List Challenge) : Option Challenge :=
  challenges.find? fun c => c.type = .dns01

/-- The record for a challenge. -/
def record (authz : Authorization) (challenge : Challenge) : DnsRecord :=
  ⟨"_acme-challenge." ++ authz.identifier, client.dnsValue challenge, 60⟩

/-- The loop over the authorizations, up to its next call. -/
def authorize (placed : List DnsRecord) : List Authorization → Issue × List Call
  | [] => (⟨.refreshing 29 2, placed⟩, [.refresh])
  | authz :: rest =>
    if authz.status ≠ .pending then authorize placed rest
    else
      match findDns01 authz.challenges with
      | none => (⟨.returned (.error .noDns01), placed⟩, [])
      | some challenge =>
        let record := client.record authz challenge
        (⟨.placing record challenge.url rest, placed⟩, [.upsertTxt record])

/-- After the last round of refreshing. -/
def makeRequest (placed : List DnsRecord) : Issue × List Call :=
  (⟨.requesting, placed⟩, [.makeRequest client.domain])

/-- The loop over the placed records, up to its next call. -/
def cleanUp (placed : List DnsRecord) (mat : CertMaterial) : List DnsRecord → Issue × List Call
  | [] => (⟨.returned (.ok mat), placed⟩, [])
  | r :: rest => (⟨.deleting mat rest, placed⟩, [.deleteTxt r])

/-- An early return. -/
def fail (placed : List DnsRecord) (e : AcmeError) : Issue × List Call :=
  (⟨.returned (.error e), placed⟩, [])

/-- `issue`, from one outcome to the next call. -/
def issue : Machine Issue Reply Call where
  step s reply :=
    match s.phase, reply with
    | .ordering, .newOrder (.error e) => fail s.placed (.acme e)
    | .ordering, .newOrder (.ok _) => (⟨.authorizing, s.placed⟩, [.authorizations])
    | .authorizing, .authorizations (.error e) => fail s.placed (.acme e)
    | .authorizing, .authorizations (.ok authzs) => client.authorize s.placed authzs
    | .placing _ _ _, .upsertTxt (.error e) => fail s.placed (.dns e)
    | .placing record url rest, .upsertTxt (.ok _) =>
      (⟨.readying rest, s.placed ++ [record]⟩, [.setChallengeReady url])
    | .readying _, .setChallengeReady (.error e) => fail s.placed (.acme e)
    | .readying rest, .setChallengeReady (.ok _) => client.authorize s.placed rest
    | .refreshing _ _, .refresh (.error e) => fail s.placed (.acme e)
    | .refreshing rounds backoff, .refresh (.ok status) =>
      match status with
      | .pending | .processing => (⟨.backingOff rounds backoff, s.placed⟩, [.sleep backoff])
      | .ready | .valid => client.makeRequest s.placed
      | .invalid error => fail s.placed (.orderFailed ("order invalid: " ++ error))
    | .backingOff 0 _, .slept => client.makeRequest s.placed
    | .backingOff (rounds + 1) backoff, .slept =>
      (⟨.refreshing rounds (min (backoff * 2) 30), s.placed⟩, [.refresh])
    | .requesting, .makeRequest (.error e) => fail s.placed (.rcgen e)
    | .requesting, .makeRequest (.ok r) =>
      (⟨.finalizing r.privateKeyPem, s.placed⟩, [.finalize r.csr])
    | .finalizing _, .finalize (.error e) => fail s.placed (.acme e)
    | .finalizing key, .finalize (.ok _) => (⟨.polling key, s.placed⟩, [.certificate])
    | .polling _, .certificate (.error e) => fail s.placed (.acme e)
    | .polling key, .certificate (.ok none) => (⟨.waiting key, s.placed⟩, [.sleep 1])
    | .polling key, .certificate (.ok (some pem)) => cleanUp s.placed ⟨pem, key⟩ s.placed
    | .waiting key, .slept => (⟨.polling key, s.placed⟩, [.certificate])
    | .deleting mat rest, .deleteTxt _ => cleanUp s.placed mat rest
    | _, _ => (s, [])

end AcmeClient

/-- `issue` after its first call, for a new order. -/
def Issue.start : Issue := ⟨.ordering, []⟩

/-- The record that a step learns to be placed. -/
def places : Issue × Reply → List DnsRecord
  | (⟨.placing record _ _, _⟩, .upsertTxt (.ok _)) => [record]
  | _ => []

/-- The record that a call removes. -/
def removes : Call → Option DnsRecord
  | .deleteTxt record => some record
  | _ => none

/-- When `issue` has returned, it has tried to remove every record it has placed. -/
def AcmeClient.CleansUp (client : AcmeClient) (replies : List Reply) : Prop :=
  ∀ result, (client.issue.run .start replies).phase = .returned result →
    ∀ record ∈ client.issue.acquired places .start replies,
      .deleteTxt record ∈ client.issue.sent .start replies

/-- The next pending authorization offers no DNS-01 challenge. -/
def lacksDns01 (authzs : List Authorization) : Bool :=
  (authzs.find? fun a => a.status = .pending).any fun a =>
    (AcmeClient.findDns01 a.challenges).isNone

/-- The outcome ends the order. -/
def Phase.fails : Phase → Reply → Bool
  | .ordering, .newOrder (.error _) => true
  | .authorizing, .authorizations (.error _) => true
  | .authorizing, .authorizations (.ok authzs) => lacksDns01 authzs
  | .placing .., .upsertTxt (.error _) => true
  | .readying _, .setChallengeReady (.error _) => true
  | .readying rest, .setChallengeReady (.ok _) => lacksDns01 rest
  | .refreshing .., .refresh (.error _) => true
  | .refreshing .., .refresh (.ok (.invalid _)) => true
  | .requesting, .makeRequest (.error _) => true
  | .finalizing _, .finalize (.error _) => true
  | .polling _, .certificate (.error _) => true
  | _, _ => false

/-- The order fails while there are records in place. -/
def Issue.Abandons (s : Issue) (reply : Reply) : Prop :=
  s.placed ≠ [] ∧ s.phase.fails reply = true

instance (s : Issue) (reply : Reply) : Decidable (s.Abandons reply) :=
  inferInstanceAs (Decidable (_ ∧ _))

/-- The order is still under way: cleaning up has not begun. -/
def Phase.working : Phase → Bool
  | .deleting .. | .returned _ => false
  | _ => true

/-- The records that a state will still remove, if nothing fails. -/
def Issue.owed (s : Issue) : List DnsRecord :=
  match s.phase with
  | .deleting _ rest => rest
  | .returned _ => []
  | _ => s.placed

section Steps

private theorem call_of_removes {call : Call} {record : DnsRecord}
    (h : removes call = some record) :
    call = .deleteTxt record := by
  cases call with
  | deleteTxt r => exact congrArg Call.deleteTxt (Option.some.inj h)
  | _ => cases h

variable (client : AcmeClient) {s : Issue} {reply : Reply}

private theorem Issue.owed_of_working (h : s.phase.working = true) : s.owed = s.placed := by
  unfold owed
  split
  next hp => rw [hp] at h; cases h
  next hp => rw [hp] at h; cases h
  next => rfl

/-- The order is still under way, with the given records in place, and has removed none. -/
structure GoesOn (placed : List DnsRecord) (a : Issue × List Call) : Prop where
  working : a.1.phase.working = true
  placed : a.1.placed = placed
  calls : a.2.filterMap removes = []

/-- The loop over the authorizations stops at a pending one that lacks its challenge. Otherwise
the order goes on, with the next record or by refreshing. -/
theorem authorize_spec (authzs : List Authorization) (placed : List DnsRecord) :
    (lacksDns01 authzs = true →
        client.authorize placed authzs = AcmeClient.fail placed .noDns01) ∧
      (lacksDns01 authzs = false → GoesOn placed (client.authorize placed authzs)) := by
  induction authzs with
  | nil => exact ⟨fun h => (by cases h), fun _ => ⟨rfl, rfl, rfl⟩⟩
  | cons authz rest ih =>
    rw [lacksDns01, List.find?_cons, AcmeClient.authorize]
    by_cases hp : authz.status = .pending
    · rw [if_neg (not_not.mpr hp)]
      simp only [hp, decide_true, Option.any_some]
      cases AcmeClient.findDns01 authz.challenges with
      | none => exact ⟨fun _ => rfl, fun h => (by cases h)⟩
      | some challenge => exact ⟨fun h => (by cases h), fun _ => ⟨rfl, rfl, rfl⟩⟩
    · rw [if_pos hp]
      simp only [hp, decide_false]
      exact ih

/-- A failure returns at once. -/
theorem step_fails (h : s.phase.fails reply = true) :
    s.phase.working = true ∧ places (s, reply) = [] ∧
      ∃ e, client.issue.step s reply = AcmeClient.fail s.placed e := by
  obtain ⟨phase, placed⟩ := s
  dsimp only at h
  unfold Phase.fails at h
  split at h
  case h_3 authzs => exact ⟨rfl, rfl, .noDns01, (authorize_spec client authzs placed).1 h⟩
  case h_6 rest _ => exact ⟨rfl, rfl, .noDns01, (authorize_spec client rest placed).1 h⟩
  case h_12 => cases h
  all_goals exact ⟨rfl, rfl, _, rfl⟩

/-- No record is added. -/
theorem GoesOn.append_nil {placed : List DnsRecord} {r : Issue × List Call}
    (h : GoesOn placed r) : GoesOn (placed ++ []) r := by rwa [List.append_nil]

/-- A step of an order under way that does not fail books what it places, and goes on or begins
to clean up. -/
theorem step_goesOn (hw : s.phase.working = true) (h : s.phase.fails reply = false) :
    GoesOn (s.placed ++ places (s, reply)) (client.issue.step s reply) ∨
      places (s, reply) = [] ∧
        ∃ mat, client.issue.step s reply = AcmeClient.cleanUp s.placed mat s.placed := by
  obtain ⟨phase, placed⟩ := s
  dsimp only at hw h
  cases phase with
  | ordering =>
    cases reply with
    | newOrder r =>
      cases r with
      | error e => cases h
      | ok _ => exact Or.inl (GoesOn.append_nil ⟨rfl, rfl, rfl⟩)
    | _ => exact Or.inl (GoesOn.append_nil ⟨rfl, rfl, rfl⟩)
  | authorizing =>
    cases reply with
    | authorizations r =>
      cases r with
      | error e => cases h
      | ok authzs =>
        have hgoes := (authorize_spec client authzs placed).2 h
        exact Or.inl hgoes.append_nil
    | _ => exact Or.inl (GoesOn.append_nil ⟨rfl, rfl, rfl⟩)
  | placing record url rest =>
    cases reply with
    | upsertTxt r =>
      cases r with
      | error e => cases h
      | ok _ => exact Or.inl ⟨rfl, rfl, rfl⟩
    | _ => exact Or.inl (GoesOn.append_nil ⟨rfl, rfl, rfl⟩)
  | readying rest =>
    cases reply with
    | setChallengeReady r =>
      cases r with
      | error e => cases h
      | ok _ =>
        have hgoes := (authorize_spec client rest placed).2 h
        exact Or.inl hgoes.append_nil
    | _ => exact Or.inl (GoesOn.append_nil ⟨rfl, rfl, rfl⟩)
  | refreshing rounds backoff =>
    cases reply with
    | refresh r =>
      cases r with
      | error e => cases h
      | ok status =>
        cases status with
        | invalid error => cases h
        | _ => exact Or.inl (GoesOn.append_nil ⟨rfl, rfl, rfl⟩)
    | _ => exact Or.inl (GoesOn.append_nil ⟨rfl, rfl, rfl⟩)
  | backingOff rounds backoff =>
    cases rounds <;> cases reply <;> exact Or.inl (GoesOn.append_nil ⟨rfl, rfl, rfl⟩)
  | requesting =>
    cases reply with
    | makeRequest r =>
      cases r with
      | error e => cases h
      | ok _ => exact Or.inl (GoesOn.append_nil ⟨rfl, rfl, rfl⟩)
    | _ => exact Or.inl (GoesOn.append_nil ⟨rfl, rfl, rfl⟩)
  | finalizing key =>
    cases reply with
    | finalize r =>
      cases r with
      | error e => cases h
      | ok _ => exact Or.inl (GoesOn.append_nil ⟨rfl, rfl, rfl⟩)
    | _ => exact Or.inl (GoesOn.append_nil ⟨rfl, rfl, rfl⟩)
  | polling key =>
    cases reply with
    | certificate r =>
      cases r with
      | error e => cases h
      | ok pem =>
        cases pem with
        | none => exact Or.inl (GoesOn.append_nil ⟨rfl, rfl, rfl⟩)
        | some pem => exact Or.inr ⟨rfl, _, rfl⟩
    | _ => exact Or.inl (GoesOn.append_nil ⟨rfl, rfl, rfl⟩)
  | waiting key => cases reply <;> exact Or.inl (GoesOn.append_nil ⟨rfl, rfl, rfl⟩)
  | deleting | returned => cases hw

/-- The cleanup removes what it is given, one by one, or has done so. -/
theorem mem_cleanUp {placed records : List DnsRecord} {mat : CertMaterial} {r : DnsRecord}
    (h : r ∈ records) : r ∈ (AcmeClient.cleanUp placed mat records).2.filterMap removes ∨
      r ∈ (AcmeClient.cleanUp placed mat records).1.owed := by
  cases records with
  | nil => cases h
  | cons record rest =>
    rcases List.mem_cons.mp h with rfl | h
    · exact Or.inl (List.mem_singleton_self _)
    · exact Or.inr h

/-- Once cleaning up has begun, no record is placed, and the next outcome leads to the next
record. -/
theorem step_cleaning (h : s.phase.working = false) (reply : Reply) : places (s, reply) = [] ∧
    (client.issue.step s reply = (s, []) ∨
      ∃ mat, client.issue.step s reply = AcmeClient.cleanUp s.placed mat s.owed) := by
  obtain ⟨phase, placed⟩ := s
  dsimp only at h
  cases phase with
  | deleting mat rest =>
    cases reply with
    | deleteTxt r => exact ⟨rfl, Or.inr ⟨mat, rfl⟩⟩
    | _ => exact ⟨rfl, Or.inl rfl⟩
  | returned result => exact ⟨rfl, Or.inl rfl⟩
  | _ => cases h

/-- Only a failure with records in place loses any. -/
theorem not_loses (h : ¬s.Abandons reply) :
    ¬client.issue.Loses places removes Issue.owed s reply := by
  rintro ⟨r, hdue, hback, howed⟩
  by_cases hw : s.phase.working = true
  · rw [Issue.owed_of_working hw] at hdue
    by_cases hf : s.phase.fails reply = true
    · have hnone : s.placed = [] := by
        by_contra hplaced
        exact h ⟨hplaced, hf⟩
      rw [(step_fails client hf).2.1, hnone] at hdue
      rcases hdue with hdue | hdue <;> cases hdue
    · rcases step_goesOn client hw (Bool.not_eq_true _ ▸ hf) with
        ⟨hworking, hplaced, -⟩ | ⟨hplaces, mat, hstep⟩
      · apply howed
        rw [Issue.owed_of_working hworking, hplaced, List.mem_append]
        exact hdue.symm
      · rw [hplaces] at hdue
        rw [hstep] at hback howed
        exact (mem_cleanUp (hdue.resolve_left List.not_mem_nil)).elim hback howed
  · obtain ⟨hplaces, hstep | ⟨mat, hstep⟩⟩ :=
      step_cleaning client (Bool.eq_false_of_not_eq_true hw) reply
    · rw [hplaces] at hdue
      rw [hstep] at howed
      exact howed (hdue.resolve_left List.not_mem_nil)
    · rw [hplaces] at hdue
      rw [hstep] at hback howed
      exact (mem_cleanUp (hdue.resolve_left List.not_mem_nil)).elim hback howed

end Steps

section Runs

variable (client : AcmeClient)

/-- The cleanup does not end with an order under way. -/
theorem cleanUp_not_working (placed records : List DnsRecord) (mat : CertMaterial) :
    (AcmeClient.cleanUp placed mat records).1.phase.working = false := by
  cases records <;> rfl

/-- An order that is under way after a step was so before it, and went on. -/
theorem working_of_step {s : Issue} {reply : Reply}
    (h : (client.issue.step s reply).1.phase.working = true) :
    s.phase.working = true ∧ s.phase.fails reply = false := by
  by_cases hw : s.phase.working = true
  · refine ⟨hw, Bool.eq_false_of_not_eq_true fun hf => ?_⟩
    obtain ⟨-, -, e, hstep⟩ := step_fails client hf
    rw [hstep] at h
    cases h
  · obtain ⟨-, hstep | ⟨mat, hstep⟩⟩ :=
      step_cleaning client (Bool.eq_false_of_not_eq_true hw) reply
    · rw [hstep] at h
      exact absurd h hw
    · rw [hstep, cleanUp_not_working] at h
      cases h

/-- An order under way has booked what it has placed, and has removed nothing. -/
theorem working_run (replies : List Reply)
    (h : (client.issue.run .start replies).phase.working = true) :
    (client.issue.run .start replies).placed = client.issue.acquired places .start replies ∧
      client.issue.released removes .start replies = [] := by
  induction replies using List.reverseRecOn with
  | nil => exact ⟨rfl, rfl⟩
  | append_singleton replies reply ih =>
    rw [Machine.acquired_snoc, Machine.released_snoc]
    rw [Machine.run_snoc] at h ⊢
    obtain ⟨hw, hf⟩ := working_of_step client h
    obtain ⟨hplaced, hreleased⟩ := ih hw
    rcases step_goesOn client hw hf with ⟨-, hstep, hcalls⟩ | ⟨-, mat, hstep⟩
    · exact ⟨by rw [hstep, hplaced], by rw [hreleased, hcalls, List.append_nil]⟩
    · rw [hstep, cleanUp_not_working] at h
      cases h

/-- Nothing moves an order that has returned. -/
theorem returned_run {s : Issue} {result : Except AcmeError CertMaterial}
    (h : s.phase = .returned result) (replies : List Reply) :
    client.issue.run s replies = s ∧ client.issue.sent s replies = [] := by
  induction replies with
  | nil => exact ⟨rfl, rfl⟩
  | cons reply replies ih =>
    have hstep : client.issue.step s reply = (s, []) := by
      simp only [AcmeClient.issue, h]
    rw [Machine.run_cons, Machine.sent_cons, hstep, ih.1, ih.2]
    exact ⟨rfl, rfl⟩

variable {client}

/-- What is due at the end of a run that abandons nothing has been removed, or still will be. -/
theorem cleansUp_of_not_abandons {replies : List Reply}
    (h : ∀ v ∈ client.issue.visits .start replies, ¬v.1.Abandons v.2) :
    client.CleansUp replies := by
  intro result hresult record hrecord
  have hkeep : ∀ v ∈ client.issue.visits .start replies,
      ¬client.issue.Loses places removes Issue.owed v.1 v.2 := fun v hv => not_loses client (h v hv)
  rcases Machine.released_or_owed hkeep hrecord with hback | howed
  · obtain ⟨call, hcall, hremoves⟩ := List.mem_filterMap.mp hback
    rwa [← call_of_removes hremoves]
  · rw [Issue.owed, hresult] at howed
    cases howed

/-- A run that abandons its records has returned without removing any. -/
theorem abandons_run {replies : List Reply} {v : Issue × Reply}
    (hv : v ∈ client.issue.visits .start replies) (h : v.1.Abandons v.2) :
    (∃ result, (client.issue.run .start replies).phase = .returned result) ∧
      client.issue.acquired places .start replies ≠ [] ∧
        client.issue.released removes .start replies = [] := by
  obtain ⟨js, ks, hsplit, hs⟩ := client.issue.exists_of_mem_visits hv
  obtain ⟨s, reply⟩ := v
  obtain ⟨hplaced, hf⟩ := h
  dsimp only at hsplit hs hplaced hf
  subst hs hsplit
  obtain ⟨hw, -, e, hstep⟩ := step_fails client hf
  obtain ⟨hbooked, hreleased⟩ := working_run client js hw
  have hreturned : (client.issue.step (client.issue.run .start js) reply).1.phase =
      .returned (.error e) := by rw [hstep]; rfl
  obtain ⟨hrun, hsent⟩ := returned_run client hreturned ks
  refine ⟨⟨.error e, ?_⟩, ?_, ?_⟩
  · rw [Machine.run_append, Machine.run_cons, hrun, hreturned]
  · rw [hbooked] at hplaced
    rw [Machine.acquired, Machine.visits_append, List.flatMap_append, ← Machine.acquired]
    exact List.append_ne_nil_of_left_ne_nil hplaced _
  · rw [Machine.released, Machine.sent_append, Machine.sent_cons, hsent, hstep,
      List.filterMap_append, ← Machine.released, hreleased]
    rfl

/-- An order cleans up after itself exactly when nothing fails while records are in place. -/
theorem cleansUp_iff (client : AcmeClient) (replies : List Reply) :
    client.CleansUp replies ↔ ∀ v ∈ client.issue.visits .start replies, ¬v.1.Abandons v.2 := by
  constructor
  · intro hclean v hv habandons
    obtain ⟨⟨result, hresult⟩, hacquired, hreleased⟩ := abandons_run hv habandons
    obtain ⟨record, hrecord⟩ := List.exists_mem_of_ne_nil _ hacquired
    have hback : record ∈ client.issue.released removes .start replies :=
      List.mem_filterMap.mpr ⟨.deleteTxt record, hclean result hresult record hrecord, rfl⟩
    rw [hreleased] at hback
    cases hback
  · exact cleansUp_of_not_abandons

end Runs

/-- A client whose account answers a challenge with its token. -/
def sampleClient : AcmeClient := ⟨"hub.example", fun challenge => challenge.token⟩

/-- An order with one authorization, up to its record being in place. -/
def placingReplies : List Reply :=
  [.newOrder (.ok ()),
    .authorizations (.ok [⟨.pending, "hub.example", [⟨.http01, "h", "t0"⟩, ⟨.dns01, "d", "t1"⟩]⟩]),
    .upsertTxt (.ok ())]

/-- The rest of an order that goes well. -/
def issuingReplies : List Reply :=
  [.setChallengeReady (.ok ()), .refresh (.ok .processing), .slept, .refresh (.ok .ready),
    .makeRequest (.ok ⟨[1], [2]⟩), .finalize (.ok ()), .certificate (.ok none), .slept,
    .certificate (.ok (some [3])), .deleteTxt (.ok ())]

/-- An order that goes well cleans up. -/
theorem issuing_cleansUp : sampleClient.CleansUp (placingReplies ++ issuingReplies) :=
  (cleansUp_iff sampleClient (placingReplies ++ issuingReplies)).mpr (by decide)

/-- One whose challenge cannot be set ready leaves its record behind. -/
theorem refused_not_cleansUp :
    ¬sampleClient.CleansUp (placingReplies ++ [.setChallengeReady (.error "refused")]) := by
  intro h
  have hsent := h (.error (.acme "refused")) rfl ⟨"_acme-challenge.hub.example", "t1", 60⟩
    (List.mem_singleton_self _)
  revert hsent
  decide

end NdnFwd.Acme
