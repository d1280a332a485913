import NdnFwd.Core.Digits
import NdnFwd.Core.Machine
import NdnFwd.Core.Utf8
import NdnFwd.Models.Packet.Name
import NdnFwd.Models.Ping.Client

/-!
# The traceroute client

`run_client` ramps the hop limit. At each hop it sends a few probes, one after the other, and goes
on from the first one that is answered. The task suspends while a probe is in flight; sending to
the channel of events is not a point of its own here.
-/

namespace NdnFwd.Traceroute

/-- What the packet library and doubles contribute. -/
structure Wire extends Ping.Doubles where
  /-- `HOP_IDENTITY_MAGIC`. -/
  magic : Bytes
  /-- `NameComponent::keyword` of `TRACEROUTE_KEYWORD`. -/
  traceMarker : NameComponent
  parseName : String → Option Name
  showName : Name → String

/-- `TracerouteParams`, with the prefix parsed. -/
structure TracerouteParams where
  namePrefix : Name
  maxHops : UInt8
  probes : UInt8
  lifetimeMs : UInt64
  identify : Bool
  deriving DecidableEq

/-- `EventLevel`. -/
inductive EventLevel
  | info
  | warn
  | error
  | summary
  deriving DecidableEq, Repr

/-- `ToolData::TracerouteHop`. -/
structure HopData where
  hop : Nat
  reached : Bool
  rttUs : Option Nat
  node : Option String
  deriving DecidableEq, Repr

/-- `ToolData`, as far as the client emits it. -/
inductive ToolData
  | tracerouteHop (d : HopData)
  | tracerouteSummary (hops : Nat) (reached : Bool)
  deriving DecidableEq, Repr

/-- `ToolEvent`. -/
structure ToolEvent where
  text : String
  level : EventLevel
  structured : Option ToolData
  deriving DecidableEq, Repr

/-- What the client sends: probes to the network, events to its channel. -/
inductive Message
  | probe (name : Name) (hopLimit : Nat) (lifetimeMs : UInt64)
  | event (e : ToolEvent)
  deriving DecidableEq

/-- The event that is sent to the caller. -/
def Message.event? : Message → Option ToolEvent
  | event e => some e
  | probe .. => none

/-- The payloads that events carry. -/
def structured (ms : List Message) : List ToolData :=
  ms.filterMap fun m => m.event?.bind ToolEvent.structured

/-- The name of a probe and its hop limit. -/
def Message.probe? : Message → Option (Name × Nat)
  | probe name hopLimit _ => some (name, hopLimit)
  | event _ => none

/-- The probes among the messages. -/
def probes (ms : List Message) : List (Name × Nat) := ms.filterMap Message.probe?

/-- What comes of a probe. -/
inductive Fetched
  | data (content : Option Bytes) (rtt : Nat)
  | nacked (reason : Option String)
  | timeout
  | error (text : String)
  deriving DecidableEq, Repr

/-- What a resumption finds: what came of the probe in flight, and whether the channel is closed
if that is asked. -/
structure Resume where
  fetched : Fetched
  isClosed : Bool
  deriving DecidableEq, Repr

/-- What the probes of a hop have come to. -/
inductive Outcome
  | timeout
  | nack (reason : String)
  | reached (rtt : Nat)
  | hop (node : Name) (rtt : Nat)
  deriving DecidableEq

namespace Outcome

/-- Whether the producer has answered. -/
def isReached : Outcome → Bool
  | reached _ => true
  | _ => false

/-- No probe was answered. -/
def unanswered : Outcome → Bool
  | timeout | nack _ => true
  | reached _ | hop .. => false

private theorem isReached_of_unanswered {outcome : Outcome} (h : outcome.unanswered = true) :
    outcome.isReached = false := by
  cases outcome with
  | reached rtt => cases h
  | _ => rfl

end Outcome

/-- The variables of the loops, with a probe in flight. -/
structure Probing where
  hop : Nat
  /-- Probes that this hop may still send. -/
  left : Nat
  /-- The number of the next probe. -/
  seq : Nat
  outcome : Outcome
  /-- The first answer ends the probes of a hop. -/
  unanswered : outcome.unanswered = true
  deriving DecidableEq

/-- Where the client is. -/
inductive Client
  | start
  | probing (t : Probing)
  /-- Returned with a summary. -/
  | finished (reachedAt : Option Nat)
  /-- Returned from a failed probe. -/
  | failed
  deriving DecidableEq

/-- The client has returned. -/
def Client.Over : Client → Prop
  | .start | .probing _ => False
  | .finished _ | .failed => True

namespace Wire

variable (wire : Wire)

/-- The content carries the magic of an identity reply. -/
def CarriesMagic (content : Option Bytes) : Prop := ∃ c ∈ content, wire.magic <+: c

instance (content : Option Bytes) : Decidable (wire.CarriesMagic content) :=
  inferInstanceAs (Decidable (∃ _ ∈ _, _))

/-- `hop_identity`. -/
def hopIdentity (content : Option Bytes) : Option Name := do
  let content ← content
  let rest ← content.dropPrefix? wire.magic
  let text ← fromUtf8 rest
  wire.parseName text

variable (p : TracerouteParams)

/-- What an answer is taken for. -/
def classify (content : Option Bytes) (rtt : Nat) : Outcome :=
  match if p.identify then wire.hopIdentity content else none with
  | some node => .hop node rtt
  | none => .reached rtt

/-- The name of a probe. -/
def probeName (seq : Nat) : Name :=
  p.namePrefix ++ [.generic (asBytes "ping"), .generic (Digits.decimal seq)] ++
    if p.identify then [wire.traceMarker] else []

end Wire

namespace TracerouteParams

/-- `params.probes.max(1)`. -/
def probesMax (p : TracerouteParams) : Nat := max p.probes.toNat 1

end TracerouteParams

section Texts

variable (wire : Wire) (p : TracerouteParams)

/-- The first line. -/
def startEvent : ToolEvent :=
  ⟨"TRACEROUTE " ++ wire.showName p.namePrefix ++ " — up to " ++ toString p.maxHops.toNat ++
    " hops, " ++ toString p.probesMax ++ " probe(s)/hop, lifetime " ++
    toString p.lifetimeMs.toNat ++ "ms", .info, none⟩

/-- The line of an error, which ends the session. -/
def errorEvent (hop : Nat) (text : String) : ToolEvent :=
  ⟨"  hop " ++ toString hop ++ ": error (" ++ text ++ ")", .error, none⟩

/-- The event of a hop. -/
def hopEvent (hop : Nat) : Outcome → ToolEvent
  | .reached rtt =>
    ⟨"  hop " ++ toString hop ++ ": reached, rtt=" ++ wire.formatRtt rtt, .info,
      some (.tracerouteHop ⟨hop, true, some rtt, none⟩)⟩
  | .hop node rtt =>
    ⟨"  hop " ++ toString hop ++ ": " ++ wire.showName node ++ " rtt=" ++ wire.formatRtt rtt,
      .info, some (.tracerouteHop ⟨hop, false, some rtt, some (wire.showName node)⟩)⟩
  | .nack reason =>
    ⟨"  hop " ++ toString hop ++ ": nack (" ++ reason ++ ") — no route", .warn,
      some (.tracerouteHop ⟨hop, false, none, none⟩)⟩
  | .timeout =>
    ⟨"  hop " ++ toString hop ++ ": " ++ String.join (List.replicate p.probesMax "* "), .info,
      some (.tracerouteHop ⟨hop, false, none, none⟩)⟩

/-- The line of a hop carries its payload. -/
theorem hopEvent_structured (hop : Nat) (outcome : Outcome) :
    ∃ e, (hopEvent wire p hop outcome).structured = some (.tracerouteHop e) ∧
      e.hop = hop ∧ e.reached = outcome.isReached := by
  cases outcome <;> exact ⟨_, rfl, rfl, rfl⟩

/-- The last line. -/
def summaryEvent : Option Nat → ToolEvent
  | some hops =>
    ⟨"--- " ++ wire.showName p.namePrefix ++ " is " ++ toString hops ++
      " forwarder-hop(s) away ---", .summary, some (.tracerouteSummary hops true)⟩
  | none =>
    ⟨"--- " ++ wire.showName p.namePrefix ++ " not reached within " ++
      toString p.maxHops.toNat ++ " hops ---", .summary,
      some (.tracerouteSummary p.maxHops.toNat false)⟩

end Texts

section Step

variable (wire : Wire) (p : TracerouteParams)

/-- The probe of a hop. -/
def probe (hop seq : Nat) : Message := .probe (wire.probeName p seq) hop p.lifetimeMs

/-- After the loops. -/
def finish (reachedAt : Option Nat) : Client × List Message :=
  (.finished reachedAt, [.event (summaryEvent wire p reachedAt)])

/-- The top of the loop over the hops. -/
def enterHop (hop seq : Nat) (isClosed : Bool) : Client × List Message :=
  if hop ≤ p.maxHops.toNat then
    if isClosed then finish wire p none
    else (.probing ⟨hop, p.probesMax - 1, seq + 1, .timeout, rfl⟩, [probe wire p hop seq])
  else finish wire p none

/-- After the probes of a hop. -/
def leaveHop (hop seq : Nat) (isClosed : Bool) (outcome : Outcome) : Client × List Message :=
  let next := match outcome with
    | .reached _ => finish wire p (some hop)
    | .nack _ => finish wire p none
    | .hop .. | .timeout => enterHop wire p (hop + 1) seq isClosed
  (next.1, .event (hopEvent wire p hop outcome) :: next.2)

/-- After a probe that was not answered. -/
def nextProbe (t : Probing) (isClosed : Bool) (outcome : Outcome)
    (h : outcome.unanswered = true) : Client × List Message :=
  match t.left with
  | 0 => leaveHop wire p t.hop t.seq isClosed outcome
  | left + 1 => (.probing ⟨t.hop, left, t.seq + 1, outcome, h⟩, [probe wire p t.hop t.seq])

/-- `run_client`, once connected. -/
def step : Client → Resume → Client × List Message
  | .start, r =>
    let next := enterHop wire p 1 0 r.isClosed
    (next.1, .event (startEvent wire p) :: next.2)
  | .probing t, ⟨fetched, isClosed⟩ =>
    match fetched with
    | .data content rtt => leaveHop wire p t.hop t.seq isClosed (wire.classify p content rtt)
    | .nacked reason => nextProbe wire p t isClosed (.nack (reason.getD "Unspecified")) rfl
    | .timeout => nextProbe wire p t isClosed t.outcome t.unanswered
    | .error text => (.failed, [.event (errorEvent t.hop text)])
  | .finished reachedAt, _ => (.finished reachedAt, [])
  | .failed, _ => (.failed, [])

/-- `run_client`. -/
def runClient : Machine Client Resume Message := ⟨step wire p⟩

section Structured

variable (ms : List Message)

@[simp] theorem structured_nil : structured [] = [] := rfl

@[simp] theorem structured_probe (hop seq : Nat) :
    structured (probe wire p hop seq :: ms) = structured ms := rfl

@[simp] theorem structured_event (e : ToolEvent) :
    structured (.event e :: ms) = e.structured.toList ++ structured ms := by
  cases h : e.structured <;> simp [structured, Message.event?, h]

@[simp] theorem startEvent_structured : (startEvent wire p).structured = none := rfl

@[simp] theorem errorEvent_structured (hop : Nat) (text : String) :
    (errorEvent hop text).structured = none := rfl

@[simp] theorem summaryEvent_structured (reachedAt : Option Nat) :
    (summaryEvent wire p reachedAt).structured =
      some (.tracerouteSummary (reachedAt.getD p.maxHops.toNat) reachedAt.isSome) := by
  cases reachedAt <;> rfl

end Structured

/-- The structured events of a run. -/
def data (rs : List Resume) : List ToolData := structured ((runClient wire p).sent .start rs)

end Step

section Moves

variable (wire : Wire) (p : TracerouteParams)

/-- The probe in flight ends in an error other than a Nack or a timeout. -/
def fails : Client × Resume → Bool
  | (.probing _, ⟨.error _, _⟩) => true
  | _ => false

/-- The hop whose probe is answered, and what with. -/
def answer? : Client × Resume → Option (Nat × Option Bytes)
  | (.probing t, ⟨.data content _, _⟩) => some (t.hop, content)
  | _ => none

/-- The answer is taken for one of the target. -/
def reaches (content : Option Bytes) : Bool := !p.identify || (wire.hopIdentity content).isNone

/-- The hop at which the target is taken to be reached. -/
def reachedAt? (v : Client × Resume) : Option Nat :=
  (answer? v).bind fun a => if reaches wire p a.2 then some a.1 else none

/-- All that a step can do. -/
inductive Move : Client × Resume → Client × List Message → Prop
  | begin (r : Resume) : 1 ≤ p.maxHops.toNat → Move (.start, r)
      (.probing ⟨1, p.probesMax - 1, 1, .timeout, rfl⟩,
        [.event (startEvent wire p), probe wire p 1 0])
  | skip (r : Resume) : Move (.start, r)
      (.finished none, [.event (startEvent wire p), .event (summaryEvent wire p none)])
  | again {t : Probing} {r : Resume} {left : Nat} (outcome : Outcome)
      (h : outcome.unanswered = true) : t.left = left + 1 →
      reachedAt? wire p (.probing t, r) = none → fails (.probing t, r) = false →
      Move (.probing t, r) (.probing ⟨t.hop, left, t.seq + 1, outcome, h⟩,
        [probe wire p t.hop t.seq])
  | arrive {t : Probing} {r : Resume} (outcome : Outcome) : outcome.isReached = true →
      reachedAt? wire p (.probing t, r) = some t.hop → fails (.probing t, r) = false →
      Move (.probing t, r) (.finished (some t.hop),
        [.event (hopEvent wire p t.hop outcome), .event (summaryEvent wire p (some t.hop))])
  | climb {t : Probing} {r : Resume} (outcome : Outcome) : outcome.isReached = false →
      t.hop + 1 ≤ p.maxHops.toNat →
      reachedAt? wire p (.probing t, r) = none → fails (.probing t, r) = false →
      Move (.probing t, r) (.probing ⟨t.hop + 1, p.probesMax - 1, t.seq + 1, .timeout, rfl⟩,
        [.event (hopEvent wire p t.hop outcome), probe wire p (t.hop + 1) t.seq])
  | stop {t : Probing} {r : Resume} (outcome : Outcome) : outcome.isReached = false →
      reachedAt? wire p (.probing t, r) = none → fails (.probing t, r) = false →
      Move (.probing t, r) (.finished none,
        [.event (hopEvent wire p t.hop outcome), .event (summaryEvent wire p none)])
  | fail {t : Probing} {r : Resume} (text : String) :
      reachedAt? wire p (.probing t, r) = none → fails (.probing t, r) = true →
      Move (.probing t, r) (.failed, [.event (errorEvent t.hop text)])
  | rest {s : Client} {r : Resume} : s.Over → Move (s, r) (s, [])

variable {wire p} {t : Probing} {r : Resume} {outcome : Outcome}

/-- A session that is over does not fail. -/
theorem fails_of_over {s : Client} (h : s.Over) (r : Resume) : fails (s, r) = false := by
  cases s with
  | start => cases h
  | probing t => cases h
  | finished reachedAt => rfl
  | failed => rfl

/-- A session that is over takes no answer. -/
theorem answer?_of_over {s : Client} (h : s.Over) (r : Resume) : answer? (s, r) = none := by
  cases s with
  | start => cases h
  | probing t => cases h
  | finished reachedAt => rfl
  | failed => rfl

private theorem enterHop_cases (wire : Wire) (p : TracerouteParams) (hop seq : Nat)
    (isClosed : Bool) :
    enterHop wire p hop seq isClosed = finish wire p none ∨
      hop ≤ p.maxHops.toNat ∧ enterHop wire p hop seq isClosed =
        (.probing ⟨hop, p.probesMax - 1, seq + 1, .timeout, rfl⟩, [probe wire p hop seq]) := by
  rw [enterHop]
  split_ifs with hhop
  · exact Or.inl rfl
  · exact Or.inr ⟨hhop, rfl⟩
  · exact Or.inl rfl

/-- Leaving a hop that did not reach the target. -/
theorem move_leaveHop (ho : outcome.isReached = false)
    (hr : reachedAt? wire p (.probing t, r) = none) (hf : fails (.probing t, r) = false) :
    Move wire p (.probing t, r) (leaveHop wire p t.hop t.seq r.isClosed outcome) := by
  have hnext : ∀ a, a = finish wire p none ∨ t.hop + 1 ≤ p.maxHops.toNat ∧
      a = (.probing ⟨t.hop + 1, p.probesMax - 1, t.seq + 1, .timeout, rfl⟩,
        [probe wire p (t.hop + 1) t.seq]) →
      Move wire p (.probing t, r) (a.1, .event (hopEvent wire p t.hop outcome) :: a.2) := by
    rintro _ (rfl | ⟨hhop, rfl⟩)
    · exact .stop outcome ho hr hf
    · exact .climb outcome ho hhop hr hf
  cases outcome with
  | reached rtt => cases ho
  | nack reason => exact hnext _ (Or.inl rfl)
  | hop node rtt => exact hnext _ (enterHop_cases wire p (t.hop + 1) t.seq r.isClosed)
  | timeout => exact hnext _ (enterHop_cases wire p (t.hop + 1) t.seq r.isClosed)

private theorem move_nextProbe (h : outcome.unanswered = true)
    (hr : reachedAt? wire p (.probing t, r) = none) (hf : fails (.probing t, r) = false) :
    Move wire p (.probing t, r) (nextProbe wire p t r.isClosed outcome h) := by
  rw [nextProbe]
  split
  · exact move_leaveHop (Outcome.isReached_of_unanswered h) hr hf
  · exact .again outcome h ‹_› hr hf

/-- An answer is taken for one of the target, or names the hop. -/
theorem classify_cases (wire : Wire) (p : TracerouteParams) (content : Option Bytes) (rtt : Nat) :
    reaches wire p content = true ∧ wire.classify p content rtt = .reached rtt ∨
      reaches wire p content = false ∧ (wire.classify p content rtt).isReached = false := by
  rw [reaches, Wire.classify]
  cases p.identify with
  | false => exact Or.inl ⟨rfl, rfl⟩
  | true =>
    cases wire.hopIdentity content with
    | none => exact Or.inl ⟨rfl, rfl⟩
    | some node => exact Or.inr ⟨rfl, rfl⟩

/-- Every step is a move. -/
theorem move_step (wire : Wire) (p : TracerouteParams) (v : Client × Resume) :
    Move wire p v (step wire p v.1 v.2) := by
  obtain ⟨s, r⟩ := v
  cases s with
  | start =>
    rcases enterHop_cases wire p 1 0 r.isClosed with hfinish | ⟨hhop, hprobe⟩
    · simp only [step, hfinish]
      exact .skip r
    · simp only [step, hprobe]
      exact .begin r hhop
  | probing t =>
    obtain ⟨fetched, isClosed⟩ := r
    cases fetched with
    | data content rtt =>
      have hat : reachedAt? wire p (.probing t, ⟨.data content rtt, isClosed⟩) =
          if reaches wire p content then some t.hop else none := rfl
      rcases classify_cases wire p content rtt with ⟨hreaches, hclassify⟩ | ⟨hnot, hclassify⟩
      · rw [hreaches] at hat
        simp only [step, hclassify]
        exact .arrive (.reached rtt) rfl hat rfl
      · rw [hnot] at hat
        exact move_leaveHop hclassify hat rfl
    | nacked reason => exact move_nextProbe rfl rfl rfl
    | timeout => exact move_nextProbe t.unanswered rfl rfl
    | error text => exact .fail text rfl rfl
  | finished reachedAt => exact .rest trivial
  | failed => exact .rest trivial

end Moves

section Samples

/-- Names as slash-separated texts, with plain components. -/
def sampleWire : Wire where
  magic := asBytes "TRH-ID:"
  traceMarker := ⟨0x20, asBytes "TRH"⟩
  parseName text :=
    match text.toList with
    | '/' :: path => some ((path.splitOn '/').map fun c => .generic (asBytes (String.ofList c)))
    | _ => none
  showName name := String.join (name.map fun c => "/" ++ (fromUtf8 c.value).getD "")
  ratio _ _ := 0
  fixed _ _ := "0"

/-- Two hops at most, two probes each. -/
def sampleParams : TracerouteParams where
  namePrefix := [.generic (asBytes "ndn")]
  maxHops := 2
  probes := 2
  lifetimeMs := 1000
  identify := true

/-- What comes of the probes, on an open channel. -/
def resumes (fs : List Fetched) : List Resume := (.timeout :: fs).map fun f => ⟨f, false⟩

end Samples

end NdnFwd.Traceroute
