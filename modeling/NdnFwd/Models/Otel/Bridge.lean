import NdnFwd.Core.Ledger
import NdnFwd.Core.Machine
import NdnFwd.Core.Utf8
import NdnFwd.Models.Otel.Export
import NdnFwd.Models.Packet.Name

/-!
# The poll and flush loop of the bridge

One iteration polls the listing of recent spans, fetches the spans it has not noted
yet, and then may POST the batch. Every fetch and every POST can fail. The batch of
the source holds bodies only; here each body keeps the identifier it was fetched
for, and the bodies of the successful POSTs are recorded, so that the runs can be
read as the runs of a ledger of spans.
-/

namespace NdnFwd.Otel

/-- A trace identifier and a span identifier. -/
abbrev Pair := Bytes × Bytes

section Listing

/-- The slash and the two line-break bytes. -/
def slash : UInt8 := 0x2F

/-- Line feed. -/
def lf : UInt8 := 0x0A

/-- Carriage return. -/
def cr : UInt8 := 0x0D

/-- A line without its line feed, less a carriage return before it. -/
def stripCr (line : Bytes) : Bytes :=
  if line.getLast? = some cr then line.dropLast else line

/-- The lines of a text whose current line starts with `line`. -/
def linesFrom (line : Bytes) : Bytes → List Bytes
  | [] => if line = [] then [] else [line]
  | b :: bs => if b = lf then stripCr line :: linesFrom [] bs else linesFrom (line ++ [b]) bs

/-- `text.lines()`. -/
def lines (text : Bytes) : List Bytes := linesFrom [] text

/-- `line.split_once('/')`. -/
def splitOnce (line : Bytes) : Option (Bytes × Bytes) :=
  if slash ∈ line then some (line.takeWhile (· ≠ slash), (line.dropWhile (· ≠ slash)).tail)
  else none

/-- A string slice was taken off a character boundary. -/
inductive Panic
  /-- `byte index is not a char boundary`. -/
  | notCharBoundary
  deriving DecidableEq, Repr

/-- No character begins at a continuation byte. -/
def isContinuation (b : UInt8) : Bool := 0x80 ≤ b && b < 0xC0

/-- The value of a hexadecimal digit. -/
def hexDigit (b : UInt8) : Option UInt8 :=
  if 0x30 ≤ b ∧ b ≤ 0x39 then some (b - 0x30)
  else if 0x41 ≤ b ∧ b ≤ 0x46 then some (b - 0x37)
  else if 0x61 ≤ b ∧ b ≤ 0x66 then some (b - 0x57)
  else none

/-- `u8::from_str_radix` on a two-byte string, in base 16. A leading plus sign is allowed. -/
def fromStrRadix16 (a b : UInt8) : Option UInt8 :=
  if a = 0x2B then hexDigit b
  else (hexDigit a).bind fun hi => (hexDigit b).map fun lo => hi * 16 + lo

/-- The loop over two-byte slices of `decode_pair`. -/
def decodeHex : Bytes → Except Panic (Option Bytes)
  | a :: b :: rest =>
    if isContinuation a || rest.head?.any isContinuation then .error .notCharBoundary
    else
      match fromStrRadix16 a b with
      | none => .ok none
      | some v => (decodeHex rest).map (Option.map (v :: ·))
  | _ => .ok (some [])

/-- `decode_pair`. -/
def decodePair (traceHex spanHex : Bytes) : Except Panic (Option Pair) :=
  if traceHex.length ≠ 32 ∨ spanHex.length ≠ 16 then .ok none
  else
    match decodeHex traceHex with
    | .error e => .error e
    | .ok none => .ok none
    | .ok (some traceId) => (decodeHex spanHex).map (Option.map fun spanId => (traceId, spanId))

/-- The pair on one line of the listing, if it has one. -/
def linePair (line : Bytes) : Except Panic (Option Pair) :=
  match splitOnce line with
  | none => .ok none
  | some (traceHex, spanHex) => decodePair traceHex spanHex

/-- The pairs a poll reads, in order. A line that makes the slicing panic ends them. -/
def listing : List Bytes → List Pair
  | [] => []
  | line :: rest =>
    match linePair line with
    | .error _ => []
    | .ok none => listing rest
    | .ok (some p) => p :: listing rest

end Listing

section Naming

/-- `append_component`. -/
def appendComponent (ndnPrefix : Name) (comp : Bytes) : Name := ndnPrefix ++ [.generic comp]

/-- `hex_lower`. -/
def hexLower (bs : Bytes) : Bytes :=
  let lut := asBytes "0123456789abcdef"
  bs.flatMap fun (b : UInt8) => [lut.getD (b >>> 4).toNat 0, lut.getD (b &&& 0x0F).toNat 0]

/-- `span_data_name`. -/
def spanDataName (ndnPrefix : Name) (p : Pair) : Name :=
  ndnPrefix ++ [.generic (asBytes "traces"), .generic (hexLower p.1), .generic (asBytes "spans"),
    .generic (hexLower p.2)]

end Naming

section Loop

/-- The command line arguments the loop reads. Durations are in one unit throughout. -/
structure Cli where
  /-- Prefix the publisher serves under. -/
  ndnPrefix : Name
  /-- Where the batches go. -/
  otlpEndpoint : String
  /-- Flush when the batch has this many spans. -/
  batchSize : Nat
  /-- Flush a non-empty batch at least this often. -/
  batchTimeout : Nat
  /-- `service.name` of the payload. -/
  serviceName : String

/-- A fetched span. The source keeps its body only. -/
structure Span where
  /-- The identifier it was listed under. -/
  id : Pair
  /-- Its OTLP bytes. -/
  body : Bytes
  deriving DecidableEq, Repr

/-- Where the loop stands. -/
inductive Phase
  /-- In `select!`. -/
  | select
  /-- After a poll, before the flush check. -/
  | check
  /-- After shutdown. -/
  | closed
  /-- Ended by a panic. -/
  | crashed
  deriving DecidableEq, Repr

/-- The variables of `main`. -/
structure Bridge where
  /-- Pairs noted so far. -/
  seen : Finset Pair
  /-- Spans waiting for a POST. -/
  batch : List Span
  /-- When the last flush was attempted. -/
  lastFlush : Nat
  /-- Where the loop stands. -/
  phase : Phase
  /-- The batches of the successful POSTs. Only the statements read it. -/
  posts : List (List Span)

/-- What the bridge asks of the network. -/
inductive Request
  /-- An Interest. -/
  | fetch (name : Name)
  /-- An HTTP POST. -/
  | post (endpoint : String) (body : Bytes)
  deriving DecidableEq

/-- What resumes the loop, with the outcome of everything it then awaits. A fetch that
fails returns no Data; a POST that fails, or whose status is no success, returns `false`. -/
inductive Event
  /-- The poll interval elapsed: the listing, and the answer to each span fetch. -/
  | poll (recent : Option Data) (fetch : Pair → Option Data)
  /-- The flush check after a poll: the clock, and the outcome of the POST if there is one. -/
  | flush (now : Nat) (post : Bool)
  /-- The shutdown signal, and the outcome of the last POST if there is one. -/
  | shutdown (post : Bool)

/-- One line of the listing, read to the end of its loop body. -/
def pollLine (cli : Cli) (fetch : Pair → Option Data) (s : Bridge) (line : Bytes) :
    Except Panic (Bridge × List Request) :=
  match linePair line with
  | .error e => .error e
  | .ok none => .ok (s, [])
  | .ok (some p) =>
    if p ∈ s.seen then .ok (s, [])
    else
      let s := { s with seen := insert p s.seen }
      let asked := [Request.fetch (spanDataName cli.ndnPrefix p)]
      match fetch p with
      | some spanData =>
        match spanData.content with
        | some body => .ok ({ s with batch := s.batch ++ [⟨p, body⟩] }, asked)
        | none => .ok (s, asked)
      | none => .ok (s, asked)

/-- The loop over the lines. A panic ends the program. -/
def pollLines (cli : Cli) (fetch : Pair → Option Data) (s : Bridge) :
    List Bytes → Bridge × List Request
  | [] => ({ s with phase := .check }, [])
  | line :: rest =>
    match pollLine cli fetch s line with
    | .error _ => ({ s with phase := .crashed }, [])
    | .ok (s', asked) =>
      let r := pollLines cli fetch s' rest
      (r.1, asked ++ r.2)

/-- The text of a listing. -/
def recentText (recent : Option Data) : Option Bytes :=
  recent.bind fun data => if Utf8.isText data.contentOrEmpty then some data.contentOrEmpty else none

/-- `poll_once`. -/
def pollOnce (cli : Cli) (recent : Option Data) (fetch : Pair → Option Data) (s : Bridge) :
    Bridge × List Request :=
  let asked := Request.fetch (appendComponent cli.ndnPrefix (asBytes "recent"))
  match recentText recent with
  | none => ({ s with phase := .check }, [asked])
  | some text =>
    let r := pollLines cli fetch s (lines text)
    (r.1, asked :: r.2)

/-- `flush`. -/
def flush (cli : Cli) (post : Bool) (s : Bridge) : Bridge × List Request :=
  if s.batch = [] then (s, [])
  else
    let body := encodeExportRequest cli.serviceName (s.batch.map Span.body)
    let s := if post then { s with batch := [], posts := s.posts ++ [s.batch] } else s
    (s, [.post cli.otlpEndpoint body])

/-- The main loop. -/
def bridge (cli : Cli) : Machine Bridge Event Request where
  step s e :=
    match s.phase, e with
    | .select, .poll recent fetch => pollOnce cli recent fetch s
    | .check, .flush now post =>
      if s.batch.length ≥ cli.batchSize ∨
          s.batch ≠ [] ∧ now - s.lastFlush ≥ cli.batchTimeout then
        let r := flush cli post s
        ({ r.1 with lastFlush := now, phase := .select }, r.2)
      else ({ s with phase := .select }, [])
    | .select, .shutdown post =>
      let r := flush cli post s
      ({ r.1 with phase := .closed }, r.2)
    | _, _ => (s, [])

/-- The state in which the loop is entered. -/
def Bridge.start (now : Nat) : Bridge := ⟨∅, [], now, .select, []⟩

end Loop

example : decodePair (asBytes "0102030405060708090a0b0c0d0e0f10") (asBytes "a1a2a3a4a5a6a7a8") =
    .ok (some ([1, 2, 3, 4, 5, 6, 7, 8, 9, 10, 11, 12, 13, 14, 15, 16],
      [0xA1, 0xA2, 0xA3, 0xA4, 0xA5, 0xA6, 0xA7, 0xA8])) := rfl

end NdnFwd.Otel
