import NdnFwd.Models.Iperf.Server

/-!
# What becomes of agreed session terms

Of the agreed terms only the signing mode is stored, under the lossy text of the flow;
data Interests look it up under the flow itself, or under the empty key when it is not
text. The two keys agree for text, and a session is kept and private exactly when each
negotiation agrees on the default size and has such a flow, or changes nothing.
-/

namespace NdnFwd.Iperf

/-- The terms of a session. -/
structure Terms where
  /-- Payload size. -/
  size : Nat
  /-- Signing mode. -/
  signing : Signing
  deriving DecidableEq, Repr

/-- The terms a message announces. -/
def ServerOutput.terms : ServerOutput → Option Terms
  | .sent (.session _ resp _) => some ⟨resp.size, resp.signing⟩
  | _ => none

/-- A Data packet honours the terms. -/
def Reply.Honours (terms : Terms) : Reply → Prop
  | .payload _ content _ sign => content.length = terms.size ∧ sign.signing = terms.signing
  | .session .. => False

section Properties

variable (u : ServerSetup)

/-- The flow that negotiates at this arrival. -/
def Server.negotiating (s : Server) : Arrival → Option Bytes
  | .packet (some request) _ =>
    if s.running ∧ u.isSession request.name then u.flow request.name else none
  | _ => none

/-- The terms in force after an arrival: a negotiation that is answered sets those of its flow,
and one that is not clears them. -/
def agree (terms : Bytes → Option Terms) (v : Server × Arrival) : Bytes → Option Terms :=
  match v.1.negotiating u v.2 with
  | some g => Function.update terms g (((server u).step v.1 v.2).2.findSome? ServerOutput.terms)
  | none => terms

/-- The terms in force after a run. -/
def agreed (s : Server) (as : List Arrival) : Bytes → Option Terms :=
  ((server u).visits s as).foldl (agree u) fun _ => none

/-- While the server runs it answers every data Interest of a flow by the flow's terms. -/
def Server.Honours (s : Server) (terms : Bytes → Option Terms) : Prop :=
  ∀ f t, terms f = some t → s.running = true → ∀ request : Request,
    u.flow request.name = some f → u.isSession request.name = false →
      ∃ reply, ((server u).step s (.packet (some request) true)).2 = [.sent reply] ∧
        reply.Honours t

/-- The terms name the default size, and the modes in force under the keys of their flows. -/
def Server.Holds (s : Server) (terms : Bytes → Option Terms) : Prop :=
  s.running = true → ∀ f t, terms f = some t →
    u.payloadSize = t.size ∧ (s.modeOf (strOrEmpty f)).signing = t.signing

/-- A negotiation changes no answer to an Interest of another flow. -/
def Server.Isolated (s : Server) (a : Arrival) : Prop :=
  ∀ g, s.negotiating u a = some g → ∀ f, f ≠ g → ∀ request : Request,
    u.flow request.name = some f → ∀ sendOk,
      ((server u).step ((server u).step s a).1 (.packet (some request) sendOk)).2 =
        ((server u).step s (.packet (some request) sendOk)).2

/-- Sessions are honoured and isolated throughout a run. -/
def Server.Kept (s : Server) (as : List Arrival) : Prop :=
  (∀ as', as' <+: as → ((server u).run s as').Honours u (agreed u s as')) ∧
    ∀ v ∈ (server u).visits s as, v.1.Isolated u v.2

/-- A negotiation asks for the default size or for none, and its flow is non-empty text, or else
the modes in force under both its keys are already as agreed. -/
def Server.Fits (s : Server) : Arrival → Prop
  | .packet (some request) sendOk =>
    ∀ g, s.negotiating u (.packet (some request) sendOk) = some g →
      let req := u.sessionRequest request
      (sendOk = true → req.size = 0 ∨ req.size = u.payloadSize) ∧
        (Utf8.isText g = true ∧ g ≠ [] ∨
          s.modeOf (Utf8.lossy g) = makeSignMode req.agreedSign (Utf8.lossy g) ∧
            (sendOk = true → (s.modeOf (strOrEmpty g)).signing = req.agreedSign))
  | _ => True

end Properties

section Keys

/-- Some other flow reads the key under which a flow is stored, unless that flow is non-empty
text. -/
theorem exists_reads_iff (g : Bytes) :
    (∃ f, f ≠ g ∧ strOrEmpty f = Utf8.lossy g) ↔ ¬(Utf8.isText g = true ∧ g ≠ []) := by
  constructor
  · rintro ⟨f, hne, hkey⟩ ⟨htext, hnil⟩
    rw [Utf8.lossy_of_isText htext, strOrEmpty] at hkey
    split_ifs at hkey
    · exact hne hkey
    · exact hnil hkey.symm
  · intro h
    by_cases htext : Utf8.isText g = true
    · have hnil : g = [] := by
        by_contra hne
        exact h ⟨htext, hne⟩
      subst hnil
      exact ⟨[0xFF], by decide, by decide⟩
    · refine ⟨Utf8.lossy g, fun he => htext (he ▸ Utf8.isText_lossy g), ?_⟩
      rw [strOrEmpty, if_pos (Utf8.isText_lossy g)]

private theorem strOrEmpty_of_isText {g : Bytes} (h : Utf8.isText g = true) :
    strOrEmpty g = Utf8.lossy g := by
  rw [strOrEmpty, if_pos h, Utf8.lossy_of_isText h]

end Keys

section Steps

variable {u : ServerSetup}

/-- The name of a data Interest of a flow. -/
def ServerSetup.dataName (u : ServerSetup) (f : Bytes) : Name := u.serverPrefix ++ [.generic f]

@[simp] theorem flow_dataName (f : Bytes) : u.flow (u.dataName f) = some f := by
  simp [ServerSetup.flow, ServerSetup.dataName, NameComponent.generic]

@[simp] theorem isSession_dataName (f : Bytes) : u.isSession (u.dataName f) = false := by
  simp [ServerSetup.isSession, ServerSetup.dataName]

/-- A session name is long enough to have a flow. -/
theorem exists_flow {name : Name} (h : u.isSession name = true) : ∃ g, u.flow name = some g := by
  obtain ⟨c, hc, -⟩ := (Option.any_eq_true _ _).mp h
  have hlen : u.serverPrefix.length + 1 < name.length := (List.getElem?_eq_some_iff.mp hc).1
  obtain ⟨c', hc'⟩ : ∃ c', name[u.serverPrefix.length]? = some c' :=
    ⟨_, List.getElem?_eq_getElem (Nat.lt_of_succ_lt hlen)⟩
  exact ⟨c'.value, by rw [ServerSetup.flow, hc', Option.map_some]⟩

/-- A negotiation is an Interest for a session that the running server takes. -/
theorem negotiating_eq_some {s : Server} {a : Arrival} {g : Bytes}
    (h : s.negotiating u a = some g) :
    ∃ request sendOk, a = .packet (some request) sendOk ∧ s.running = true ∧
      u.isSession request.name = true ∧ u.flow request.name = some g := by
  cases a with
  | closed => cases h
  | packet request sendOk =>
    cases request with
    | none => cases h
    | some request =>
      rw [Server.negotiating] at h
      split_ifs at h with hs
      exact ⟨request, sendOk, rfl, hs.1, hs.2, h⟩

private theorem step_session {s : Server} {request : Request} (hrun : s.running = true)
    (hs : u.isSession request.name = true) (sendOk : Bool) :
    (server u).step s (.packet (some request) sendOk) = s.negotiate u request sendOk := by
  simp only [server, hrun, if_pos hs]

private theorem step_data {s : Server} {request : Request} (hrun : s.running = true)
    (hs : u.isSession request.name = false) :
    (server u).step s (.packet (some request) true) = (s, [.sent (s.answer u request.name)]) := by
  simp only [server, hrun, hs, Bool.false_eq_true, if_false, if_true]

/-- Every other arrival leaves the stored modes alone, and does not start the server again. -/
theorem step_other {s : Server} {a : Arrival} (h : s.negotiating u a = none) :
    ((server u).step s a).1.flowSigners = s.flowSigners ∧
      (((server u).step s a).1.running = true → s.running = true) := by
  cases hrun : s.running with
  | false => simp [server, hrun]
  | true =>
    cases a with
    | closed => simp [server, hrun]
    | packet request sendOk =>
      cases request with
      | none => simp [server, hrun]
      | some request =>
        by_cases hs : u.isSession request.name = true
        · obtain ⟨g, hg⟩ := exists_flow hs
          rw [Server.negotiating, if_pos ⟨hrun, hs⟩, hg] at h
          cases h
        · simp only [server, hrun, if_neg hs]
          split_ifs
          · exact ⟨rfl, fun _ => trivial⟩
          · exact ⟨rfl, fun _ => trivial⟩

private theorem agreedSize_eq_iff {req : SessionRequest} :
    u.agreedSize req = u.payloadSize ↔ req.size = 0 ∨ req.size = u.payloadSize := by
  rw [ServerSetup.agreedSize]
  split_ifs with hpos
  · exact ⟨Or.inr, fun h => h.resolve_left (Nat.ne_of_gt hpos)⟩
  · exact ⟨fun _ => Or.inl (Nat.eq_zero_of_not_pos hpos), fun _ => rfl⟩

@[simp] theorem running_negotiate (s : Server) (request : Request) (sendOk : Bool) :
    (s.negotiate u request sendOk).1.running = s.running := by
  rw [Server.negotiate]
  split_ifs <;> rfl

private theorem flowSigners_negotiate (s : Server) (request : Request) (sendOk : Bool) :
    (s.negotiate u request sendOk).1.flowSigners =
      s.flowSigners.insert (u.response request).sessionId
        (makeSignMode (u.response request).signing (u.response request).sessionId) := by
  rw [Server.negotiate]
  split_ifs <;> rfl

/-- What a negotiation answers does not depend on what was stored. -/
theorem negotiate_congr (s s' : Server) (request : Request) (sendOk : Bool) :
    (s.negotiate u request sendOk).2 = (s'.negotiate u request sendOk).2 := by
  rw [Server.negotiate, Server.negotiate]
  split_ifs <;> rfl

private theorem sessionId_response {request : Request} {g : Bytes}
    (h : u.flow request.name = some g) :
    (u.response request).sessionId = Utf8.lossy g := by
  simp only [ServerSetup.response, ServerSetup.sessionFlowId, h, Option.map_some, Option.getD_some]

/-- A negotiation changes the mode under its own key only. -/
theorem modeOf_negotiate {s : Server} {request : Request} {g : Bytes}
    (h : u.flow request.name = some g) (sendOk : Bool) (key : Bytes) :
    (s.negotiate u request sendOk).1.modeOf key =
      if key = Utf8.lossy g then
        makeSignMode (u.sessionRequest request).agreedSign (Utf8.lossy g)
      else s.modeOf key := by
  rw [Server.modeOf, flowSigners_negotiate, sessionId_response h]
  split_ifs with hk
  · rw [hk, AList.lookup_insert]
    rfl
  · rw [AList.lookup_insert_ne hk]
    rfl

private theorem answer_eq {s : Server} {name : Name} {f : Bytes} (h : u.flow name = some f) :
    s.answer u name =
      .payload name (List.replicate u.payloadSize 0xAA) u.freshness (s.modeOf (strOrEmpty f)) := by
  simp only [Server.answer, ServerSetup.dataFlowId, h, Option.map_some, Option.getD_some]

/-- While the server runs it keeps the terms of a flow exactly when they name the default size
and the signing mode in force under the flow's key. -/
theorem honours_iff_holds {s : Server} {terms : Bytes → Option Terms} :
    s.Honours u terms ↔ s.Holds u terms := by
  have hanswer : ∀ (name : Name) f t, u.flow name = some f →
      ((s.answer u name).Honours t ↔
        u.payloadSize = t.size ∧ (s.modeOf (strOrEmpty f)).signing = t.signing) := by
    intro name f t hf
    rw [answer_eq hf, Reply.Honours, List.length_replicate]
  constructor
  · intro h hrun f t ht
    obtain ⟨reply, hr, hkept⟩ := h f t ht hrun ⟨u.dataName f, none⟩ (flow_dataName f)
      (isSession_dataName f)
    rw [step_data hrun (isSession_dataName f), List.singleton_inj, ServerOutput.sent.injEq] at hr
    rw [← hr] at hkept
    exact (hanswer _ f t (flow_dataName f)).mp hkept
  · intro h f t ht hrun request hf hs
    refine ⟨_, congrArg Prod.snd (step_data hrun hs), ?_⟩
    exact (hanswer _ f t hf).mpr (h hrun f t ht)

/-- A negotiation is isolated if and only if it leaves the mode under the key of every other
flow as it was. -/
theorem isolated_iff {s : Server} {a : Arrival} {g : Bytes} (h : s.negotiating u a = some g) :
    s.Isolated u a ↔ ∀ f, f ≠ g →
      ((server u).step s a).1.modeOf (strOrEmpty f) = s.modeOf (strOrEmpty f) := by
  obtain ⟨request, sendOk, rfl, hrun, hs, hg⟩ := negotiating_eq_some h
  rw [step_session hrun hs]
  have hrun' : (s.negotiate u request sendOk).1.running = true := by rw [running_negotiate, hrun]
  constructor
  · intro hiso f hne
    have hsame := hiso g h f hne ⟨u.dataName f, none⟩ (flow_dataName f) true
    rw [step_session hrun hs, step_data hrun' (isSession_dataName f),
      step_data hrun (isSession_dataName f), List.singleton_inj, ServerOutput.sent.injEq,
      answer_eq (flow_dataName f), answer_eq (flow_dataName f)] at hsame
    exact (Reply.payload.inj hsame).2.2.2
  · intro hmodes g' hg' f hne request' hf sendOk'
    obtain rfl := Option.some.inj (h.symm.trans hg')
    rw [step_session hrun hs]
    by_cases hs' : u.isSession request'.name = true
    · rw [step_session hrun' hs', step_session hrun hs']
      exact negotiate_congr _ _ _ _
    · simp only [server, hrun, hrun', if_neg hs']
      cases sendOk' with
      | false => rfl
      | true => simp only [if_true, answer_eq hf, hmodes f hne]

/-- The modes that the agreed one replaces: none is read by another flow, or none changes. -/
theorem untouched_iff {s : Server} {request : Request} {g : Bytes}
    (h : u.flow request.name = some g) (sendOk : Bool) :
    (∀ f, f ≠ g →
        (s.negotiate u request sendOk).1.modeOf (strOrEmpty f) = s.modeOf (strOrEmpty f)) ↔
      Utf8.isText g = true ∧ g ≠ [] ∨
        s.modeOf (Utf8.lossy g) =
          makeSignMode (u.sessionRequest request).agreedSign (Utf8.lossy g) := by
  have hread : ∀ f, strOrEmpty f = Utf8.lossy g →
      (s.negotiate u request sendOk).1.modeOf (strOrEmpty f) =
        makeSignMode (u.sessionRequest request).agreedSign (Utf8.lossy g) := by
    intro f hf
    rw [modeOf_negotiate h, if_pos hf]
  constructor
  · intro hsame
    by_cases hplain : Utf8.isText g = true ∧ g ≠ []
    · exact Or.inl hplain
    · obtain ⟨f, hne, hf⟩ := (exists_reads_iff g).mpr hplain
      have hkept := hsame f hne
      rw [hread f hf, hf] at hkept
      exact Or.inr hkept.symm
  · intro hor f hne
    by_cases hf : strOrEmpty f = Utf8.lossy g
    · rcases hor with hplain | hmode
      · exact absurd hplain ((exists_reads_iff g).mp ⟨f, hne, hf⟩)
      · rw [hread f hf, hf, hmode]
    · rw [modeOf_negotiate h, if_neg hf]

end Steps

section Runs

variable {u : ServerSetup}

/-- The terms a negotiation puts in force. -/
theorem agree_session {s : Server} {request : Request} {sendOk : Bool} {g : Bytes}
    (h : s.negotiating u (.packet (some request) sendOk) = some g) (terms : Bytes → Option Terms) :
    agree u terms (s, .packet (some request) sendOk) =
      Function.update terms g
        (if sendOk then
          some ⟨u.agreedSize (u.sessionRequest request), (u.sessionRequest request).agreedSign⟩
        else none) := by
  obtain ⟨request', sendOk', he, hrun, hs, -⟩ := negotiating_eq_some h
  obtain ⟨hr, rfl⟩ := Arrival.packet.inj he
  obtain rfl := Option.some.inj hr
  simp only [agree, h]
  rw [step_session hrun hs, Server.negotiate]
  cases sendOk with
  | false => rfl
  | true => rfl

/-- A fitting arrival keeps the terms in force, and is isolated. -/
theorem holds_step {s : Server} {terms : Bytes → Option Terms} {a : Arrival}
    (h : s.Holds u terms) (hfit : s.Fits u a) :
    ((server u).step s a).1.Holds u (agree u terms (s, a)) ∧ s.Isolated u a := by
  cases hn : s.negotiating u a with
  | none =>
    obtain ⟨hsigners, hrun⟩ := step_other hn
    refine ⟨fun hrun' f t ht => ?_, fun g hg => ?_⟩
    · simp only [agree, hn] at ht
      obtain ⟨hsize, hmode⟩ := h (hrun hrun') f t ht
      exact ⟨hsize, by rwa [Server.modeOf, hsigners]⟩
    · rw [hn] at hg
      cases hg
  | some g =>
    obtain ⟨request, sendOk, rfl, hrun, hs, hg⟩ := negotiating_eq_some hn
    obtain ⟨hsize, hmodes⟩ := hfit g hn
    have huntouched := (untouched_iff hg sendOk).mpr (hmodes.imp_right And.left)
    have hiso : s.Isolated u (.packet (some request) sendOk) := by
      rw [isolated_iff hn, step_session hrun hs]
      exact huntouched
    refine ⟨fun _ f t ht => ?_, hiso⟩
    rw [agree_session hn] at ht
    rw [step_session hrun hs]
    by_cases hf : f = g
    · subst hf
      rw [Function.update_self] at ht
      split_ifs at ht with hok
      obtain rfl := Option.some.inj ht
      refine ⟨(agreedSize_eq_iff.mpr (hsize hok)).symm, ?_⟩
      rw [modeOf_negotiate hg]
      split_ifs with hkey
      · exact signing_makeSignMode _ _
      · rcases hmodes with ⟨htext, -⟩ | ⟨-, hmode⟩
        · exact absurd (strOrEmpty_of_isText htext) hkey
        · exact hmode hok
    · rw [Function.update_of_ne hf] at ht
      rw [huntouched f hf]
      exact h hrun f t ht

/-- A negotiation that is isolated and whose terms are honoured afterwards fits. -/
theorem fits_of_kept {s : Server} {terms : Bytes → Option Terms} {a : Arrival}
    (hiso : s.Isolated u a) (h : ((server u).step s a).1.Holds u (agree u terms (s, a))) :
    s.Fits u a := by
  cases a with
  | closed => trivial
  | packet request sendOk =>
    cases request with
    | none => trivial
    | some request =>
      intro g hn
      obtain ⟨request', sendOk', he, hrun, hs, hg⟩ := negotiating_eq_some hn
      obtain ⟨hr, rfl⟩ := Arrival.packet.inj he
      obtain rfl := Option.some.inj hr
      rw [isolated_iff hn, step_session hrun hs] at hiso
      have hmodes := (untouched_iff hg sendOk).mp hiso
      rw [step_session hrun hs] at h
      have hterms : sendOk = true →
          u.payloadSize = u.agreedSize (u.sessionRequest request) ∧
            ((s.negotiate u request sendOk).1.modeOf (strOrEmpty g)).signing =
              (u.sessionRequest request).agreedSign := by
        intro hok
        have hset := congrFun (agree_session hn terms) g
        rw [Function.update_self, if_pos hok] at hset
        exact h (by rw [running_negotiate, hrun]) g _ hset
      refine ⟨fun hok => agreedSize_eq_iff.mp (hterms hok).1.symm,
        hmodes.imp_right fun hmode => ⟨hmode, fun hok => ?_⟩⟩
      have hsign := (hterms hok).2
      rw [modeOf_negotiate hg] at hsign
      split_ifs at hsign with hkey
      · rw [hkey, hmode, signing_makeSignMode]
      · exact hsign

private theorem agreed_snoc (s : Server) (as : List Arrival) (a : Arrival) :
    agreed u s (as ++ [a]) = agree u (agreed u s as) ((server u).run s as, a) := by
  rw [agreed, Machine.visits_append, List.foldl_append]
  rfl

private theorem holds_run {as : List Arrival}
    (h : ∀ v ∈ (server u).visits Server.start as, v.1.Fits u v.2) :
    ((server u).run Server.start as).Holds u (agreed u Server.start as) := by
  refine (server u).visits_induction
    (I := fun as => ((server u).run Server.start as).Holds u (agreed u Server.start as)) ?_ ?_ h
  · exact fun _ f t ht => absurd ht (Option.some_ne_none t).symm
  · intro as a ih hfit
    rw [Machine.run_snoc, agreed_snoc]
    exact (holds_step ih hfit).1

/-- Sessions are honoured and isolated throughout a run if and only if every negotiation fits. -/
theorem kept_iff (u : ServerSetup) (as : List Arrival) :
    Server.start.Kept u as ↔ ∀ v ∈ (server u).visits Server.start as, v.1.Fits u v.2 := by
  constructor
  · rintro ⟨hhonours, hiso⟩ v hv
    obtain ⟨before, hpre, hs⟩ := (server u).exists_prefix_of_mem_visits hv
    have hnext := honours_iff_holds.mp (hhonours (before ++ [v.2]) hpre)
    rw [Machine.run_snoc, agreed_snoc, ← hs] at hnext
    exact fits_of_kept (hiso v hv) hnext
  · intro hfits
    have hholds : ∀ as', as' <+: as →
        ((server u).run Server.start as').Holds u (agreed u Server.start as') :=
      fun as' hpre => holds_run fun v hv => hfits v ((server u).mem_visits_of_isPrefix hpre hv)
    refine ⟨fun as' has' => honours_iff_holds.mpr (hholds as' has'), fun v hv => ?_⟩
    obtain ⟨before, hpre, hs⟩ := (server u).exists_prefix_of_mem_visits hv
    have hbefore := hholds before ((List.prefix_append _ _).trans hpre)
    exact (holds_step (hs ▸ hbefore) (hfits v hv)).2

/-- `/s`, with a default payload of 8192 bytes. The JSON reader knows two requests: a size of
1024, and a signing mode. -/
def sample : ServerSetup where
  serverPrefix := [.generic [0x73]]
  payloadSize := 8192
  freshnessMs := 0
  parseRequest bs :=
    if bs = [0x7B, 0x22, 0x73, 0x69, 0x7A, 0x65, 0x22, 0x3A, 0x31, 0x30, 0x32, 0x34, 0x7D] then
      some { SessionRequest.default with size := 1024 }
    else if bs = [0x7B, 0x22, 0x73, 0x69, 0x67, 0x6E, 0x69, 0x6E, 0x67, 0x22, 0x3A, 0x22, 0x6E,
        0x6F, 0x6E, 0x65, 0x22, 0x7D] then
      some { SessionRequest.default with signing := "none" }
    else none
  parseName _ := none

/-- A session that agrees on 1024 bytes is served 8192, and the session of a flow that is not
text changes the answers to the flow whose id is its lossy text. -/
theorem not_kept_sample :
    let size : Arrival := .packet (some ⟨[.generic [0x73], .generic [0x66], .generic sessionMarker],
      some [0x7B, 0x22, 0x73, 0x69, 0x7A, 0x65, 0x22, 0x3A, 0x31, 0x30, 0x32, 0x34, 0x7D]⟩) true
    let signing : Arrival := .packet (some ⟨[.generic [0x73], .generic [0xFF],
      .generic sessionMarker], some [0x7B, 0x22, 0x73, 0x69, 0x67, 0x6E, 0x69, 0x6E, 0x67, 0x22,
        0x3A, 0x22, 0x6E, 0x6F, 0x6E, 0x65, 0x22, 0x7D]⟩) true
    ¬Server.start.Kept sample [size] ∧ ¬Server.start.Kept sample [signing] := by
  intro size signing
  constructor
  · rintro ⟨hhonours, -⟩
    have hterms := honours_iff_holds.mp (hhonours [size] List.prefix_rfl) rfl [0x66]
      ⟨1024, .digestSha256⟩ (by decide)
    exact absurd hterms.1 (by decide)
  · rintro ⟨-, hiso⟩
    have hn : Server.start.negotiating sample signing = some [0xFF] := by decide
    have hmodes := (isolated_iff hn).mp (hiso (Server.start, signing) (List.mem_singleton_self _))
    exact absurd (hmodes [0xEF, 0xBF, 0xBD] (by decide)) (by decide)

end Runs

end NdnFwd.Iperf
