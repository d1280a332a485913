import NdnFwd.Core.Digits
import NdnFwd.Core.Machine
import NdnFwd.Core.Quantile
import NdnFwd.Core.Rounding
import NdnFwd.Core.Utf8
import NdnFwd.Models.Packet.Name

/-!
# The ping client

`run_client` sends one Interest at a time and counts what comes of it. The task suspends while an
Interest is in flight and between two of them; sending to the channel of events is not a point of
its own here. A double is kept as its bits, and what the hardware computes with doubles and how
they are printed is left open, but for the index of the 99th percentile.
-/

namespace NdnFwd.Ping

/-- What doubles and their formatting contribute to a time. -/
structure Doubles where
  /-- `a as f64 / b as f64`. -/
  ratio : Nat → Nat → UInt64
  /-- `{:.k}` of a double. -/
  fixed : Nat → UInt64 → String

/-- What names, doubles and their formatting contribute. -/
structure Wire extends Doubles where
  showName : Name → String
  /-- `a as f64 / b as f64 * 100.0`. -/
  percent : Nat → Nat → UInt64
  /-- The square root of the mean squared distance to a number. -/
  stddev : Nat → List Nat → UInt64

/-- `PingClientParams`, with the prefix parsed. -/
structure PingClientParams where
  namePrefix : Name
  /-- `0` is unlimited. -/
  count : Nat
  intervalMs : Nat
  lifetimeMs : Nat
  deriving DecidableEq

/-- `EventLevel`. -/
inductive EventLevel
  | info
  | warn
  | error
  | summary
  deriving DecidableEq, Repr

/-- `ToolData::PingResult`. -/
structure PingResult where
  seq : Nat
  rttUs : Nat
  deriving DecidableEq, Repr

/-- `ToolData::PingSummary`. -/
structure PingSummary where
  sent : Nat
  received : Nat
  nacks : Nat
  timeouts : Nat
  lossPct : UInt64
  rttMinUs : Nat
  rttAvgUs : Nat
  rttMaxUs : Nat
  rttP50Us : Nat
  rttP99Us : Nat
  rttStddev : UInt64
  deriving DecidableEq

/-- `ToolData`, as far as the client emits it. -/
inductive ToolData
  | pingResult (r : PingResult)
  | pingSummary (s : PingSummary)
  deriving DecidableEq

/-- `ToolEvent`. -/
structure ToolEvent where
  text : String
  level : EventLevel
  structured : Option ToolData
  deriving DecidableEq

/-- What the client sends: Interests to the network, events to its channel. -/
inductive Message
  | interest (name : Name) (lifetimeMs : Nat)
  | event (e : ToolEvent)
  deriving DecidableEq

/-- The event that is sent to the caller. -/
def Message.event? : Message → Option ToolEvent
  | event e => some e
  | interest .. => none

/-- The name of the Interest that is sent. -/
def Message.interest? : Message → Option Name
  | interest name _ => some name
  | event _ => none

/-- `ToolEvent::info`. -/
def ToolEvent.info (text : String) : ToolEvent := ⟨text, .info, none⟩

/-- `ToolEvent::warn`. -/
def ToolEvent.warn (text : String) : ToolEvent := ⟨text, .warn, none⟩

/-- `ToolEvent::error`. -/
def ToolEvent.error (text : String) : ToolEvent := ⟨text, .error, none⟩

/-- `ToolEvent::summary`. -/
def ToolEvent.summary (text : String) : ToolEvent := ⟨text, .summary, none⟩

/-- `ToolEvent::with_data`. -/
def ToolEvent.withData (e : ToolEvent) (data : ToolData) : ToolEvent :=
  { e with structured := some data }

/-- What comes of an Interest. -/
inductive Fetched
  | data (name : Name) (rttUs : Nat)
  | nacked (reason : Option String) (rttUs : Nat)
  | timeout
  | error (text : String)
  deriving DecidableEq

/-- What a resumption finds: what came of the Interest in flight if there is one, whether the
channel is closed if that is asked, and the time since the start if the client ends. -/
structure Resume where
  fetched : Fetched
  isClosed : Bool
  elapsedMs : Nat
  deriving DecidableEq

/-- The variables of the loop. -/
structure Counts where
  rttResults : List Nat
  timeouts : Nat
  nacks : Nat
  seq : Nat
  deriving DecidableEq, Repr

/-- Where the client is. -/
inductive Client
  | start
  | fetching (c : Counts)
  | sleeping (c : Counts)
  | finished
  deriving DecidableEq

/-- `(n as f64 * 0.99) as usize`: the significand of `0.99` is `8917127262193582` over `2 ^ 53`. -/
def p99Index (n : Nat) : Nat :=
  Rounding.significant 53 (Rounding.significant 53 n * 8917127262193582) / 2 ^ 53

/-- The ranks of the median and the 99th percentile. -/
def percentiles (n : Nat) : List Nat := [n / 2, p99Index n]

/-- `format_rtt`. -/
def Doubles.formatRtt (doubles : Doubles) (us : Nat) : String :=
  if 1000000 ≤ us then doubles.fixed 1 (doubles.ratio us 1000000) ++ "s"
  else if 1000 ≤ us then doubles.fixed 2 (doubles.ratio us 1000) ++ "ms"
  else toString us ++ "µs"

section Texts

variable (wire : Wire) (p : PingClientParams)

/-- The first line. -/
def startEvent : ToolEvent :=
  .info ("PING " ++ wire.showName p.namePrefix ++ " — " ++
    (if p.count = 0 then "∞" else toString p.count) ++ " packets, interval " ++
    toString p.intervalMs ++ "ms, lifetime " ++ toString p.lifetimeMs ++ "ms")

/-- The line of an answer. -/
def resultEvent (seq : Nat) (name : Name) (rttUs : Nat) : ToolEvent :=
  (ToolEvent.info ("  " ++ wire.showName name ++ ": seq=" ++ toString seq ++ " rtt=" ++
    wire.formatRtt rttUs)).withData (.pingResult ⟨seq, rttUs⟩)

/-- The line of a Nack. -/
def nackEvent (seq : Nat) (reason : Option String) (rttUs : Nat) : ToolEvent :=
  .warn ("  seq=" ++ toString seq ++ ": nack (" ++ reason.getD "Unspecified" ++ "), rtt=" ++
    wire.formatRtt rttUs)

/-- The line of a timeout. -/
def timeoutEvent (seq : Nat) : ToolEvent := .warn ("  seq=" ++ toString seq ++ ": timeout")

/-- The line of an error, which ends the session. -/
def errorEvent (seq : Nat) (text : String) : ToolEvent :=
  .error ("  seq=" ++ toString seq ++ ": error (" ++ text ++ ")")

end Texts

section Summary

variable (wire : Wire) (p : PingClientParams) (c : Counts)

/-- `loss_pct`. -/
def lossPct (sent received : Nat) : UInt64 :=
  if 0 < sent then wire.percent (sent - received) sent else 0

/-- `compute_rtt_stats`: the minimum, mean, maximum, median, 99th percentile and standard
deviation. The sum for the mean wraps around, as in a build without overflow checks. -/
def computeRttStats (rttResults : List Nat) : Nat × Nat × Nat × Nat × Nat × UInt64 :=
  match Quantile.digest percentiles rttResults with
  | none => (0, 0, 0, 0, 0, 0)
  | some d => (d.min, d.avg, d.max, d.ranked.getD 0 0, d.ranked.getD 1 0,
      wire.stddev d.avg rttResults)

/-- The event that `compute_rtt_stats` sends. -/
def rttEvent (rttResults : List Nat) : Option ToolEvent :=
  if rttResults = [] then none
  else
    let (min, avg, max, p50, p99, stddev) := computeRttStats wire rttResults
    some (.summary ("rtt min/avg/max/p50/p99/stddev = " ++ wire.formatRtt min ++ "/" ++
      wire.formatRtt avg ++ "/" ++ wire.formatRtt max ++ "/" ++ wire.formatRtt p50 ++ "/" ++
      wire.formatRtt p99 ++ "/" ++ wire.fixed 0 stddev ++ " µs"))

/-- The figures of the summary. -/
def pingSummary : PingSummary :=
  let (min, avg, max, p50, p99, stddev) := computeRttStats wire c.rttResults
  { sent := c.seq
    received := c.rttResults.length
    nacks := c.nacks
    timeouts := c.timeouts
    lossPct := lossPct wire c.seq c.rttResults.length
    rttMinUs := min
    rttAvgUs := avg
    rttMaxUs := max
    rttP50Us := p50
    rttP99Us := p99
    rttStddev := stddev }

/-- After the loop. -/
def summaryEvents (elapsedMs : Nat) : List ToolEvent :=
  [.summary "", .summary ("--- " ++ wire.showName p.namePrefix ++ " ping statistics ---"),
    .summary (toString c.seq ++ " transmitted, " ++ toString c.rttResults.length ++
      " received, " ++ toString c.nacks ++ " nacked, " ++
      wire.fixed 1 (lossPct wire c.seq c.rttResults.length) ++ "% loss, time " ++
      wire.fixed 1 (wire.ratio elapsedMs 1000) ++ "s")] ++
    (rttEvent wire c.rttResults).toList ++
    (if 0 < c.timeouts then [.summary (toString c.timeouts ++ " timeouts")] else []) ++
    [(ToolEvent.summary "").withData (.pingSummary (pingSummary wire c))]

end Summary

section Step

variable (wire : Wire) (p : PingClientParams)

/-- The name of the Interest with a sequence number. -/
def PingClientParams.pingName (p : PingClientParams) (seq : Nat) : Name :=
  p.namePrefix ++ [.generic (asBytes "ping"), .generic (Digits.decimal seq)]

/-- After the loop. -/
def finish (c : Counts) (r : Resume) : Client × List Message :=
  (.finished, (summaryEvents wire p c r.elapsedMs).map .event)

/-- The top of the loop. -/
def enter (c : Counts) (r : Resume) : Client × List Message :=
  if p.count ≠ 0 ∧ p.count ≤ c.seq then finish wire p c r
  else if r.isClosed then finish wire p c r
  else (.fetching c, [.interest (p.pingName c.seq) p.lifetimeMs])

/-- The end of the body. -/
def again (c : Counts) (r : Resume) : Client × List Message :=
  if p.count = 0 ∨ c.seq + 1 < p.count then (.sleeping { c with seq := c.seq + 1 }, [])
  else enter wire p { c with seq := c.seq + 1 } r

/-- The event goes out first. -/
def after (e : ToolEvent) (next : Client × List Message) : Client × List Message :=
  (next.1, .event e :: next.2)

/-- `run_client`, once connected. -/
def step : Client → Resume → Client × List Message
  | .start, r => after (startEvent wire p) (enter wire p ⟨[], 0, 0, 0⟩ r)
  | .fetching c, r =>
    match r.fetched with
    | .data name rttUs =>
      after (resultEvent wire c.seq name rttUs)
        (again wire p { c with rttResults := c.rttResults ++ [rttUs] } r)
    | .nacked reason rttUs =>
      after (nackEvent wire c.seq reason rttUs) (again wire p { c with nacks := c.nacks + 1 } r)
    | .timeout =>
      after (timeoutEvent c.seq) (again wire p { c with timeouts := c.timeouts + 1 } r)
    | .error text => after (errorEvent c.seq text) (finish wire p c r)
  | .sleeping c, r => enter wire p c r
  | .finished, _ => (.finished, [])

/-- `run_client`. -/
def runClient : Machine Client Resume Message := ⟨step wire p⟩

end Step

end NdnFwd.Ping
