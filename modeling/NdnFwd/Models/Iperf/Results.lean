import NdnFwd.Models.Iperf.Exchange

/-!
# Who answers the Interest for a reverse result

The name of a result lies under the server prefix, so the client's Interest goes to
`run_server`, which takes every Interest without the session marker for a data Interest.
As long as it has not taken the Interest, only a consumer of the same flow can answer.
-/

namespace NdnFwd.Iperf

section Names

variable {u : ServerSetup}

private theorem isSession_resultName (f : Bytes) : u.isSession (u.resultName f) = false := by
  have hget : (u.resultName f)[u.serverPrefix.length + 1]? = some (.generic resultMarker) := by
    rw [ServerSetup.resultName, List.getElem?_append_right (Nat.le_add_right _ 1),
      Nat.add_sub_cancel_left]
    rfl
  rw [ServerSetup.isSession, hget]
  decide

private theorem resultName_injective : Function.Injective u.resultName := by
  intro f g h
  have hlast := List.append_cancel_left h
  exact congrArg NameComponent.value (List.cons.inj hlast).1

private theorem prefix_resultName (f : Bytes) : u.serverPrefix <+: u.resultName f :=
  List.prefix_append _ _

/-- What the server sends, it sends in answer to the request it takes. -/
theorem sent_cases {s : Server} {request : Option Request} {sendOk : Bool} {reply : Reply}
    (h : .sent reply ∈ ((server u).step s (.packet request sendOk)).2) :
    ∃ q, request = some q ∧ s.running = true ∧ sendOk = true ∧
      ((u.isSession q.name = true ∧ reply = .session q.name (u.response q) u.freshness) ∨
        (u.isSession q.name = false ∧ reply = s.answer u q.name)) := by
  cases hrun : s.running with
  | false => simp [server, hrun] at h
  | true =>
    cases request with
    | none => simp [server, hrun] at h
    | some q =>
      refine ⟨q, rfl, rfl, ?_⟩
      cases hs : u.isSession q.name with
      | true =>
        simp only [server, hrun, hs, if_true, Server.negotiate] at h
        cases sendOk with
        | false => cases h
        | true =>
          refine ⟨rfl, Or.inl ⟨rfl, ?_⟩⟩
          rcases List.mem_cons.mp h with he | hjob
          · exact ServerOutput.sent.inj he
          · simp at hjob
      | false =>
        simp only [server, hrun, hs, Bool.false_eq_true, if_false] at h
        cases sendOk with
        | false => cases h
        | true =>
          refine ⟨rfl, Or.inr ⟨rfl, ?_⟩⟩
          exact ServerOutput.sent.inj (List.mem_singleton.mp h)

end Names

variable {κ ρ : Type*} (u : ReverseSetup κ ρ)

/-- The result of a flow reaches its client unspoilt: `run_server` answers no Interest for it
with payload, what a producer of the flow is handed is a result that a consumer of the flow
has computed, and what it prints are the counts of such a result. -/
structure Agrees (f : Bytes) (notes : List Note) : Prop where
  /-- No payload stands in for the result. -/
  noPayload : Note.payload (u.server.resultName f) ∉ notes
  /-- What a producer is handed was computed for its flow. -/
  content : ∀ c, Note.fetched f c ∈ notes →
    ∃ r, Note.computed r ∈ notes ∧ r.flowId = f ∧ c = u.encodeResult r
  /-- What it prints are the counts of such a result. -/
  summary : ∀ sum, Note.printed f sum ∈ notes →
    ∃ r, Note.computed r ∈ notes ∧ r.flowId = f ∧ sum = r.summary

/-- A client reads from a result the counts that were written. -/
def ReverseSetup.Reads : Prop := ∀ r, u.parseSummary (u.encodeResult r) = some r.summary

/-- The Interest that waits for `run_server` at a place in the queue. -/
def Exchange.awaiting (s : Exchange κ ρ) (k : Nat) : Option Request :=
  match s.forwarder.down[k]? with
  | some (.server, .request q) => some q
  | _ => none

/-- `run_server`, still running, does not take and answer an Interest for the flow's result. -/
def Exchange.LeavesResult (f : Bytes) (s : Exchange κ ρ) : ReverseEvent → Prop
  | .deliver k sendOk _ _ => s.server.running = true → sendOk = true →
      ∀ q ∈ s.awaiting k, q.name ≠ u.server.resultName f
  | _ => True

instance (f : Bytes) (s : Exchange κ ρ) : (e : ReverseEvent) → Decidable (s.LeavesResult u f e)
  | .deliver _ _ _ _ => inferInstanceAs (Decidable (_ → _ → _))
  | .ask .. | .begin .. | .forward .. | .expire .. | .timeout .. | .consumerClosed .. |
    .serverClosed | .fetch .. | .abandon .. => isTrue trivial

section Invariant

variable {u}

/-- The names that the tasks ask for: a producer asks only for the result of its flow. -/
def Exchange.Asks (u : ReverseSetup κ ρ) (s : Exchange κ ρ) : Face → Name → Prop
  | .producer i, n => ∃ p, s.producers[i]? = some p ∧ n = u.server.resultName p.flowId
  | _, _ => True

/-- Data under the name of the flow's result carries a result that was computed. -/
def Genuine (u : ReverseSetup κ ρ) (f : Bytes) (notes : List Note) (d : DataPacket) : Prop :=
  d.name = u.server.resultName f →
    ∃ r, Note.computed r ∈ notes ∧ r.flowId = f ∧ d.content = u.encodeResult r

/-- The forwarder keeps its guarantee for results of the flow. -/
def Exchange.Sound (u : ReverseSetup κ ρ) (f : Bytes) (s : Exchange κ ρ) (notes : List Note) :
    Prop :=
  s.forwarder.Lawful u.routing (s.Asks u) (Genuine u f notes)

/-- What one event shows of a flow is justified by what was shown before. -/
structure Justified (u : ReverseSetup κ ρ) (f : Bytes) (notes more : List Note) : Prop where
  noPayload : Note.payload (u.server.resultName f) ∉ more
  content : ∀ c, Note.fetched f c ∈ more →
    ∃ r, Note.computed r ∈ notes ∧ r.flowId = f ∧ c = u.encodeResult r
  summary : ∀ sum, Note.printed f sum ∈ more → ∃ c, Note.fetched f c ∈ more ∧
    u.parseSummary c = some sum

/-- Later notes change nothing. -/
theorem Genuine.mono {f : Bytes} {notes : List Note} {d : DataPacket} (h : Genuine u f notes d)
    (more : List Note) : Genuine u f (notes ++ more) d := fun hd =>
  have ⟨r, hr, hf, hc⟩ := h hd
  ⟨r, List.mem_append_left _ hr, hf, hc⟩

private theorem justified_of_silent {f : Bytes} {notes more : List Note}
    (h : ∀ n ∈ more, ∃ r, n = Note.computed r) : Justified u f notes more where
  noPayload hn := by
    obtain ⟨r, hr⟩ := h _ hn
    cases hr
  content c hn := by
    obtain ⟨r, hr⟩ := h _ hn
    cases hr
  summary sum hn := by
    obtain ⟨r, hr⟩ := h _ hn
    cases hr

private theorem justified_nil {f : Bytes} {notes : List Note} : Justified u f notes [] :=
  justified_of_silent fun _ hn => absurd hn List.not_mem_nil

/-- Producers come, and go through their phases, but keep their flows. -/
def Exchange.Extends (s s' : Exchange κ ρ) : Prop :=
  ∀ (i : Nat) (p : Producer), s.producers[i]? = some p →
    ∃ p' : Producer, s'.producers[i]? = some p' ∧ p'.flowId = p.flowId

/-- Later steps change nothing. -/
theorem Exchange.Asks.mono {s s' : Exchange κ ρ} (h : s.Extends s') {face : Face} {n : Name}
    (ha : s.Asks u face n) : s'.Asks u face n := by
  cases face with
  | producer i =>
    obtain ⟨p, hp, hn⟩ := ha
    obtain ⟨p', hp', hflow⟩ := h i p hp
    exact ⟨p', hp', by rw [hn, hflow]⟩
  | _ => trivial

private theorem Exchange.extends_set {s : Exchange κ ρ} {i : Nat} {p : Producer}
    (hp : s.producers[i]? = some p) (phase : ProducerPhase)
    (forwarder : Forwarder Name Face Request DataPacket) :
    s.Extends { s with
      producers := s.producers.set i { p with phase := phase }
      forwarder := forwarder } := by
  intro j q hq
  by_cases hij : i = j
  · subst hij
    obtain rfl := Option.some.inj (hp.symm.trans hq)
    have hlt : i < s.producers.length := (List.getElem?_eq_some_iff.mp hp).1
    exact ⟨_, List.getElem?_set_self hlt, rfl⟩
  · exact ⟨q, by rw [← hq]; exact List.getElem?_set_ne hij, rfl⟩

/-- The producers stay as they are. -/
theorem Exchange.Extends.of_eq {s s' : Exchange κ ρ} (h : s'.producers = s.producers) :
    s.Extends s' := fun _ p hp => ⟨p, h ▸ hp, rfl⟩

/-- What was shown since only helps. -/
theorem Exchange.Sound.more {f : Bytes} {s : Exchange κ ρ} {notes : List Note}
    (h : s.Sound u f notes) (more : List Note) : s.Sound u f (notes ++ more) :=
  h.mono (fun _ _ => id) fun _ hd => hd.mono more

/-- So do new producers. -/
theorem Exchange.sound_of_lawful {f : Bytes} {s s' : Exchange κ ρ} {notes : List Note}
    (h : s'.forwarder.Lawful u.routing (s.Asks u) (Genuine u f notes)) (he : s.Extends s') :
    s'.Sound u f notes := h.mono (fun _ _ => Exchange.Asks.mono he) fun _ => id

private theorem Exchange.sound_serve {f : Bytes} {s : Exchange κ ρ} {notes : List Note}
    (h : s.Sound u f notes) {m : Packet} {sendOk : Bool} {now : Nat}
    (hleaves : s.server.running = true → sendOk = true → ∀ q, m = .request q →
      q.name ≠ u.server.resultName f) :
    (s.serve u m sendOk now).1.Sound u f (notes ++ (s.serve u m sendOk now).2) ∧
      Justified u f notes (s.serve u m sendOk now).2 := by
  have hasked : ∀ q, asRequest m = some q → m = .request q := by
    intro q hq
    cases m with
    | request q' => exact congrArg Message.request (Option.some.inj hq)
    | data d => cases hq
  -- a session response is never named like a result, and payload is not by assumption
  have hnamed : ∀ reply, .sent reply ∈ ((Iperf.server u.server).step s.server
      (.packet (asRequest m) sendOk)).2 → ∀ d, ServerOutput.data u (.sent reply) = some d →
        d.name ≠ u.server.resultName f := by
    intro reply hreply d hd
    obtain ⟨q, hq, hrun, hok, ⟨hs, rfl⟩ | ⟨-, rfl⟩⟩ := sent_cases hreply
    · obtain rfl := Option.some.inj hd
      intro hname
      rw [show q.name = u.server.resultName f from hname, isSession_resultName] at hs
      cases hs
    · obtain rfl := Option.some.inj hd
      exact hleaves hrun hok q (hasked q hq)
  constructor
  · refine Exchange.sound_of_lawful (s := s) ((h.more _).send ?_ ?_) (Exchange.Extends.of_eq rfl)
    · intro q hq
      obtain ⟨d, -, he⟩ := List.mem_map.mp hq
      cases he
    · intro d hd hname
      obtain ⟨d', hd', he⟩ := List.mem_map.mp hd
      obtain rfl := Message.data.inj he
      obtain ⟨o, ho, hod⟩ := List.mem_filterMap.mp hd'
      cases o with
      | sent reply => exact absurd hname (hnamed reply ho d' hod)
      | spawned job => cases hod
  · have hnotes : ∀ n ∈ (s.serve u m sendOk now).2, ∃ name, n = .payload name ∧
        name ≠ u.server.resultName f := by
      intro n hn
      obtain ⟨o, ho, hnote⟩ := List.mem_filterMap.mp hn
      cases o with
      | spawned job => cases hnote
      | sent reply =>
        cases reply with
        | session name resp freshness => cases hnote
        | payload name content freshness sign =>
          exact ⟨name, (Option.some.inj hnote).symm, hnamed _ ho _ rfl⟩
    refine ⟨fun hn => ?_, fun c hn => ?_, fun sum hn => ?_⟩
    · obtain ⟨name, he, hne⟩ := hnotes _ hn
      exact hne (Note.payload.inj he).symm
    · obtain ⟨name, he, -⟩ := hnotes _ hn
      cases he
    · obtain ⟨name, he, -⟩ := hnotes _ hn
      cases he

private theorem Exchange.sound_wake {f : Bytes} {s : Exchange κ ρ} {notes : List Note}
    (h : s.Sound u f notes) (i : Nat) (w : Wakeup) (sendOk : Bool) (elapsed : Nat) :
    (s.wake u i w sendOk elapsed).1.Sound u f (notes ++ (s.wake u i w sendOk elapsed).2) ∧
      Justified u f notes (s.wake u i w sendOk elapsed).2 := by
  simp only [Exchange.wake]
  cases hi : s.consumers[i]? with
  | none => exact ⟨h.more [], justified_nil⟩
  | some t =>
    dsimp only
    constructor
    · refine Exchange.sound_of_lawful (s := s) ((h.more _).send (fun _ _ => trivial) ?_)
        (Exchange.Extends.of_eq rfl)
      intro d hd hname
      rcases List.mem_append.mp hd with hd | hd
      · obtain ⟨q, -, he⟩ := List.mem_map.mp hd
        cases he
      · obtain ⟨d', hd', he⟩ := List.mem_map.mp hd
        obtain rfl := Message.data.inj he
        split_ifs at hd'
        · obtain ⟨r, hr, rfl⟩ := Option.map_eq_some_iff.mp (Option.mem_toList.mp hd')
          refine ⟨r, List.mem_append_right _ ?_, resultName_injective hname, rfl⟩
          rw [hr]
          exact List.mem_singleton_self _
        · cases hd'
    · apply justified_of_silent
      intro n hn
      obtain ⟨r, -, rfl⟩ := Option.map_eq_some_iff.mp (Option.mem_toList.mp hn)
      exact ⟨r, rfl⟩

private theorem mem_read {p : Producer} {m : Packet} {n : Note} (h : n ∈ p.read u m) :
    ∃ d, m = .data d ∧ (n = .fetched p.flowId d.content ∨
      ∃ sum, u.parseSummary d.content = some sum ∧ n = .printed p.flowId sum) := by
  cases m with
  | request q => cases h
  | data d =>
    refine ⟨d, rfl, ?_⟩
    rcases List.mem_cons.mp h with h | h
    · exact Or.inl h
    · obtain ⟨sum, hsum, rfl⟩ := Option.map_eq_some_iff.mp (Option.mem_toList.mp h)
      exact Or.inr ⟨sum, hsum, rfl⟩

private theorem route_resultName (f : Bytes) :
    u.routing.route (u.server.resultName f) = [.server] :=
  if_pos (prefix_resultName f)

private theorem Exchange.sound_produce {f : Bytes} {s : Exchange κ ρ} {notes : List Note}
    (h : s.Sound u f notes) {i : Nat} {m : Packet} {sendOk : Bool}
    (hrequest : ∀ q, m = .request q → Face.producer i ∈ u.routing.route q.name)
    (hdata : ∀ d, m = .data d → s.Asks u (.producer i) d.name ∧ Genuine u f notes d) :
    (s.produce u i m sendOk).1.Sound u f (notes ++ (s.produce u i m sendOk).2) ∧
      Justified u f notes (s.produce u i m sendOk).2 := by
  rw [Exchange.produce]
  cases hi : s.producers[i]? with
  | none => exact ⟨h.more [], justified_nil⟩
  | some p =>
    have hquiet : s.Sound u f (notes ++ []) ∧ Justified u f notes [] := ⟨h.more [], justified_nil⟩
    cases hphase : p.phase with
    | serving =>
      cases m with
      | data d => simpa only [hphase] using hquiet
      | request q =>
        simp only [hphase]
        refine ⟨?_, justified_nil⟩
        refine Exchange.sound_of_lawful (s := s) ((h.more []).send ?_ ?_)
          (Exchange.Extends.of_eq rfl)
        · intro q' hq'
          split_ifs at hq' <;> simp at hq'
        · intro d hd hname
          -- an Interest for the result is routed to the server alone
          have hroute := hrequest q rfl
          have hq : q.name = u.server.resultName f := by
            split_ifs at hd
            · rw [Message.data.inj (List.mem_singleton.mp hd)] at hname
              exact hname
            · cases hd
          rw [hq, route_resultName] at hroute
          cases List.mem_singleton.mp hroute
    | fetching =>
      simp only [hphase]
      refine ⟨?_, ?_⟩
      · exact Exchange.sound_of_lawful (s := s) (h.more _) (Exchange.extends_set hi .finished _)
      · refine ⟨fun hn => ?_, fun c hn => ?_, fun sum hn => ?_⟩
        · obtain ⟨d, -, he | ⟨sum, -, he⟩⟩ := mem_read hn
          · cases he
          · cases he
        · obtain ⟨d, hd, he | ⟨sum, -, he⟩⟩ := mem_read hn
          · obtain ⟨rfl, rfl⟩ := Note.fetched.inj he
            obtain ⟨⟨p', hp', hname⟩, hgenuine⟩ := hdata d hd
            obtain rfl := Option.some.inj (hi.symm.trans hp')
            exact hgenuine hname
          · cases he
        · obtain ⟨d, hd, he | ⟨sum', hsum, he⟩⟩ := mem_read hn
          · cases he
          · obtain ⟨rfl, rfl⟩ := Note.printed.inj he
            subst hd
            exact ⟨d.content, List.mem_cons_self .., hsum⟩
    | finished => simpa only [hphase] using hquiet

private theorem Exchange.sound_fetch {f : Bytes} {s : Exchange κ ρ} {notes : List Note}
    (h : s.Sound u f notes) (i : Nat) (sendOk : Bool) : (s.fetch u i sendOk).Sound u f notes := by
  rw [Exchange.fetch]
  cases hi : s.producers[i]? with
  | none => exact h
  | some p =>
    dsimp only
    by_cases hserving : p.phase = .serving
    · rw [if_pos hserving]
      refine Exchange.sound_of_lawful (s := s) (Forwarder.Lawful.send h ?_ ?_)
        (Exchange.extends_set hi .fetching _)
      · intro q hq
        split_ifs at hq
        · rw [Message.request.inj (List.mem_singleton.mp hq)]
          exact ⟨p, hi, rfl⟩
        · cases hq
      · intro d hd
        split_ifs at hd <;> simp at hd
    · rw [if_neg hserving]
      exact h

private theorem Exchange.sound_abandon {f : Bytes} {s : Exchange κ ρ} {notes : List Note}
    (h : s.Sound u f notes) (i : Nat) : (s.abandon i).Sound u f notes := by
  rw [Exchange.abandon]
  cases hi : s.producers[i]? with
  | none => exact h
  | some p =>
    dsimp only
    split_ifs
    · exact Exchange.sound_of_lawful (s := s) h (Exchange.extends_set hi .finished _)
    · exact h

/-- One event that leaves the Interest for the result alone. -/
theorem Exchange.sound_step {f : Bytes} {s : Exchange κ ρ} {notes : List Note}
    (h : s.Sound u f notes) {e : ReverseEvent} (hleaves : s.LeavesResult u f e) :
    ((exchange u).step s e).1.Sound u f (notes ++ ((exchange u).step s e).2) ∧
      Justified u f notes ((exchange u).step s e).2 := by
  have hquiet : ∀ {s' : Exchange κ ρ}, s'.Sound u f notes →
      s'.Sound u f (notes ++ []) ∧ Justified u f notes [] := fun h' => ⟨h'.more [], justified_nil⟩
  cases e with
  | ask i request =>
    refine hquiet (Exchange.sound_of_lawful (s := s) (Forwarder.Lawful.send h ?_ ?_)
      (Exchange.Extends.of_eq rfl))
    · exact fun _ _ => trivial
    · intro d hd
      cases List.mem_singleton.mp hd
  | begin flowId signMode =>
    refine hquiet (Exchange.sound_of_lawful (s := s) h fun i p hp => ⟨p, ?_, rfl⟩)
    exact (List.getElem?_append_left (List.getElem?_eq_some_iff.mp hp).1).trans hp
  | forward k aggregate => exact hquiet (Forwarder.Lawful.forward h k aggregate)
  | expire k => exact hquiet (Forwarder.Lawful.expire h k)
  | deliver k sendOk r elapsed =>
    simp only [exchange, Exchange.deliver]
    cases hk : s.forwarder.down[k]? with
    | none => exact hquiet h
    | some x =>
      obtain ⟨face, m⟩ := x
      have hin := List.mem_of_getElem? hk
      have hrest : Exchange.Sound u f { s with forwarder := s.forwarder.take k } notes :=
        Forwarder.Lawful.take h k
      cases face with
      | server =>
        refine Exchange.sound_serve hrest fun hrun hok q hq => ?_
        subst hq
        exact hleaves hrun hok q (by rw [Exchange.awaiting, hk]; rfl)
      | consumer i => exact Exchange.sound_wake hrest i _ sendOk elapsed
      | producer i =>
        refine Exchange.sound_produce hrest (fun q hq => ?_) fun d hd => ?_
        · subst hq
          exact h.downRequest _ q hin
        · subst hd
          exact h.downData _ d hin
      | other i => exact hquiet hrest
  | timeout i sendOk r elapsed => exact Exchange.sound_wake h i _ sendOk elapsed
  | consumerClosed i sendOk elapsed => exact Exchange.sound_wake h i _ sendOk elapsed
  | serverClosed => exact hquiet (Exchange.sound_of_lawful (s := s) h (Exchange.Extends.of_eq rfl))
  | fetch i sendOk => exact hquiet (Exchange.sound_fetch h i sendOk)
  | abandon i => exact hquiet (Exchange.sound_abandon h i)

/-- Justified notes keep the agreement. -/
theorem Agrees.append {f : Bytes} {notes more : List Note} (hreads : u.Reads)
    (h : Agrees u f notes) (hmore : Justified u f notes more) : Agrees u f (notes ++ more) where
  noPayload hn := (List.mem_append.mp hn).elim h.noPayload hmore.noPayload
  content c hn := by
    have hc : ∃ r, Note.computed r ∈ notes ∧ r.flowId = f ∧ c = u.encodeResult r :=
      (List.mem_append.mp hn).elim (h.content c) (hmore.content c)
    obtain ⟨r, hr, hrest⟩ := hc
    exact ⟨r, List.mem_append_left _ hr, hrest⟩
  summary sum hn := by
    have hs : ∃ r, Note.computed r ∈ notes ∧ r.flowId = f ∧ sum = r.summary := by
      rcases List.mem_append.mp hn with hn | hn
      · exact h.summary sum hn
      · obtain ⟨c, hc, hparse⟩ := hmore.summary sum hn
        obtain ⟨r, hr, hf, rfl⟩ := hmore.content c hc
        exact ⟨r, hr, hf, Option.some.inj (hparse.symm.trans (hreads r))⟩
    obtain ⟨r, hr, hrest⟩ := hs
    exact ⟨r, List.mem_append_left _ hr, hrest⟩

/-- Along a run that leaves the Interest for the result alone, the forwarder keeps its guarantee
and the result is right. -/
theorem agrees_run {f : Bytes} (hreads : u.Reads) {es : List ReverseEvent}
    (h : ∀ v ∈ (exchange u).visits Exchange.start es, v.1.LeavesResult u f v.2) :
    ((exchange u).run Exchange.start es).Sound u f ((exchange u).sent Exchange.start es) ∧
      Agrees u f ((exchange u).sent Exchange.start es) := by
  refine (exchange u).visits_induction
    (I := fun es => ((exchange u).run Exchange.start es).Sound u f
        ((exchange u).sent Exchange.start es) ∧
      Agrees u f ((exchange u).sent Exchange.start es)) ?_ ?_ h
  · refine ⟨Forwarder.lawful_idle, ?_⟩
    constructor <;> simp
  · rintro es e ⟨hsound, hagrees⟩ hleaves
    obtain ⟨hnext, hmore⟩ := Exchange.sound_step hsound hleaves
    rw [Machine.run_snoc, Machine.sent_snoc]
    exact ⟨hnext, hagrees.append hreads hmore⟩

private theorem awaiting_eq_some {s : Exchange κ ρ} {k : Nat} {q : Request} (h : q ∈ s.awaiting k) :
    s.forwarder.down[k]? = some (.server, .request q) := by
  rw [Exchange.awaiting] at h
  split at h
  next q' hk => rw [hk, Option.some.inj h]
  · cases h

/-- A server that takes the Interest answers it with payload. -/
theorem payload_of_taken {f : Bytes} {s : Exchange κ ρ} {e : ReverseEvent}
    (h : ¬s.LeavesResult u f e) :
    Note.payload (u.server.resultName f) ∈ ((exchange u).step s e).2 := by
  cases e with
  | deliver k sendOk r elapsed =>
    simp only [Exchange.LeavesResult] at h
    push Not at h
    obtain ⟨hrun, hok, q, hq, hname⟩ := h
    have hk := awaiting_eq_some hq
    have hs : u.server.isSession q.name = false := by rw [hname, isSession_resultName]
    simp only [exchange, Exchange.deliver, hk, Exchange.serve, asRequest, hok, server, hrun, hs]
    rw [← hname]
    exact List.mem_singleton_self _
  | _ => exact absurd trivial h

end Invariant

/-- In every run, a flow's result reaches its client unspoilt if and only if `run_server` never
takes and answers an Interest for it. -/
theorem agrees_iff (hreads : u.Reads) (es : List ReverseEvent) (f : Bytes) :
    Agrees u f ((exchange u).sent Exchange.start es) ↔
      ∀ v ∈ (exchange u).visits Exchange.start es, v.1.LeavesResult u f v.2 := by
  constructor
  · intro h v hv
    by_contra htaken
    exact h.noPayload (((exchange u).mem_sent_iff _ _ _).mpr ⟨v, hv, payload_of_taken htaken⟩)
  · exact fun h => (agrees_run hreads h).2

section Sample

/-- A separator, `"<key>":` and a count. -/
def writeCount (sep : UInt8) (key : Bytes) (n : UInt64) : Bytes :=
  sep :: (key ++ Digits.decimal n.toNat)

/-- Skip a separator, read a count, and return what follows it. -/
def readCount (key bs : Bytes) : Option (UInt64 × Bytes) :=
  if key <+: bs.tail then
    let isDigit (b : UInt8) : Bool := 0x30 ≤ b.toNat ∧ b.toNat ≤ 0x39
    let rest := bs.tail.drop key.length
    (Digits.parse 64 (rest.takeWhile isDigit)).map fun n =>
      (UInt64.ofNat n, rest.dropWhile isDigit)
  else none

/-- The counts of a result as a JSON object. -/
def writeCounts (r : ReverseResult) : Bytes :=
  writeCount 0x7B (asBytes "\"lost\":") r.lost ++
    (writeCount 0x2C (asBytes "\"received\":") r.received ++
      (writeCount 0x2C (asBytes "\"sent\":") r.sent ++
        (writeCount 0x2C (asBytes "\"transferred_bytes\":") r.transferredBytes ++ [0x7D])))

/-- The counts in a JSON object. -/
def readCounts (bs : Bytes) : Option Summary := do
  let (lost, bs) ← readCount (asBytes "\"lost\":") bs
  let (received, bs) ← readCount (asBytes "\"received\":") bs
  let (sent, bs) ← readCount (asBytes "\"sent\":") bs
  let (transferredBytes, _) ← readCount (asBytes "\"transferred_bytes\":") bs
  return ⟨transferredBytes, sent, received, lost⟩

private theorem readCount_writeCount (sep : UInt8) (key : Bytes) (n : UInt64) {b : UInt8}
    (hb : ¬(0x30 ≤ b.toNat ∧ b.toNat ≤ 0x39)) (rest : Bytes) :
    readCount key (writeCount sep key n ++ b :: rest) = some (n, b :: rest) := by
  have hdigits : ∀ c ∈ Digits.decimal n.toNat,
      decide (0x30 ≤ c.toNat ∧ c.toNat ≤ 0x39) = true :=
    fun c hc => decide_eq_true (Digits.mem_decimal hc)
  rw [readCount, writeCount, List.cons_append, List.tail_cons, List.append_assoc,
    if_pos (List.prefix_append _ _), List.drop_left]
  simp only [List.takeWhile_append_of_pos hdigits, List.dropWhile_append_of_pos hdigits]
  rw [List.takeWhile_cons_of_neg (by simpa using hb),
    List.dropWhile_cons_of_neg (by simpa using hb), List.append_nil,
    Digits.parse_decimal n.toNat_lt, Option.map_some, UInt64.ofNat_toNat]

private theorem readCounts_writeCounts (r : ReverseResult) :
    readCounts (writeCounts r) = some r.summary := by
  have hcount : ∀ (sep next : UInt8) key key' n n' rest, next = 0x2C →
      readCount key (writeCount sep key n ++ (writeCount next key' n' ++ rest)) =
        some (n, writeCount next key' n' ++ rest) :=
    fun sep next key key' n n' rest hnext =>
      readCount_writeCount sep key n (by rw [hnext]; decide) _
  have hlast := readCount_writeCount 0x2C (asBytes "\"transferred_bytes\":") r.transferredBytes
    (b := 0x7D) (by decide) []
  simp only [readCounts, writeCounts, hcount _ 0x2C _ _ _ _ _ rfl, Option.bind_eq_bind,
    Option.bind_some, hlast]
  rfl

/-- A server `/s` whose JSON reader knows one request: a reverse session of no duration. -/
def loopback : ReverseSetup Nat Nat where
  server :=
    { serverPrefix := [.generic [0x73]]
      payloadSize := 4
      freshnessMs := 0
      parseRequest := fun bs =>
        if bs = asBytes "\x7b\"reverse\":true,\"callback\":\"/c\"\x7d" then
          some { SessionRequest.default with reverse := true, callback := "/c" }
        else none
      parseName := fun s => if s = "/c" then some [.generic [0x63]] else none }
  encodeResponse resp := asBytes resp.signing.text
  encodeResult := writeCounts
  parseSummary := readCounts
  wire _ := []
  decode _ := none
  congestion := Congestion.fixed
  rtt := RttFilter.whole
  aimd := 1
  fib _ := []

/-- The session Interest of a client, and its way to the server. -/
def opening : List ReverseEvent :=
  [.ask 0 ⟨[.generic [0x73], .generic [0x66], .generic sessionMarker],
      some (asBytes "\x7b\"reverse\":true,\"callback\":\"/c\"\x7d")⟩,
    .forward 0 false, .deliver 0 true (.instant 0) 0, .begin [0x66] .digestSha256]

/-- A result that is published while the Interest waits for the server reaches the client. -/
theorem agrees_before_taken :
    Agrees loopback [0x66] ((exchange loopback).sent Exchange.start (opening ++
      [.fetch 0 true, .forward 1 false, .timeout 0 true (.instant 100000) 100000, .forward 1 false,
        .deliver 1 true (.instant 100000) 0])) :=
  (agrees_iff loopback readCounts_writeCounts _ [0x66]).mpr (by decide)

/-- A result that is published before the client asks for it is dropped, and the server answers
the client with payload. -/
theorem not_agrees_published_early :
    let notes := (exchange loopback).sent Exchange.start (opening ++
      [.timeout 0 true (.instant 100000) 100000, .forward 1 false, .fetch 0 true,
        .forward 1 false, .deliver 0 true (.instant 200000) 0, .forward 1 false,
        .deliver 0 true (.instant 200000) 0])
    notes.tail = [.payload (loopback.server.resultName [0x66]),
        .fetched [0x66] [0xAA, 0xAA, 0xAA, 0xAA]] ∧
      ¬Agrees loopback [0x66] notes := by
  intro notes
  have htail : notes.tail = [.payload (loopback.server.resultName [0x66]),
      .fetched [0x66] [0xAA, 0xAA, 0xAA, 0xAA]] := by decide
  refine ⟨htail, fun h => h.noPayload (List.mem_of_mem_tail ?_)⟩
  rw [htail]
  exact List.mem_cons_self ..

end Sample

end NdnFwd.Iperf
