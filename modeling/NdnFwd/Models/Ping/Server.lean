import NdnFwd.Core.Word
import NdnFwd.Models.Ping.Client

/-!
# The ping server

`run_server` answers every Interest it can read with Data under the Interest's own name. The content
is the number of Interests answered before, which nobody reads.
-/

namespace NdnFwd.Ping

/-- `PingServerParams`, with the prefix parsed. -/
structure PingServerParams where
  namePrefix : Name
  /-- `0` omits the freshness period. -/
  freshnessMs : Nat
  sign : Bool
  deriving DecidableEq

/-- The prefix that the server registers. -/
def PingServerParams.registered (p : PingServerParams) : Name :=
  p.namePrefix ++ [.generic (asBytes "ping")]

/-- A reply. -/
structure PingData where
  name : Name
  content : Bytes
  freshness : Option Nat
  /-- Signed with the key of the server, and not with a digest. -/
  isSigned : Bool
  deriving DecidableEq

/-- Where the server is: before its loop, in it with the number of replies sent, or done. -/
inductive Server
  | start
  | listening (served : UInt64)
  | finished
  deriving DecidableEq

/-- What a resumption of the server finds. -/
inductive Arrival
  /-- The event channel is closed. -/
  | isClosed
  /-- The connection is closed. -/
  | disconnected
  /-- A packet, as an Interest if it decodes to one, and whether the reply could be signed and
  sent. -/
  | packet (interest : Option Name) (signOk sendOk : Bool)
  deriving DecidableEq

/-- What the server sends, to the network or to its caller. -/
inductive Output
  | data (d : PingData)
  | event (e : ToolEvent)
  deriving DecidableEq

/-- The reply that is sent. -/
def Output.data? : Output → Option PingData
  | data d => some d
  | event _ => none

section Server

variable (wire : Wire) (p : PingServerParams) (keyText : String)

/-- The reply to an Interest, after so many others. -/
def PingServerParams.reply (served : UInt64) (name : Name) : PingData where
  name := name
  content := Word.beBytes 8 served.toNat
  freshness := if 0 < p.freshnessMs then some p.freshnessMs else none
  isSigned := p.sign

/-- The first events. The text names the key that signs. -/
def listeningEvents : List ToolEvent :=
  (if p.sign then [.info ("Signing with " ++ keyText)] else []) ++
    [.info ("PING SERVER " ++ wire.showName p.registered ++ " (listening)")]

/-- The body of the loop. A reply that cannot be signed or sent ends the server. -/
def answer (served : UInt64) : Arrival → Server × List Output
  | .isClosed => (.finished, [])
  | .disconnected => (.finished, [])
  | .packet none _ _ => (.listening served, [])
  | .packet (some name) signOk sendOk =>
    if p.sign = true ∧ signOk = false then (.finished, [])
    else if sendOk = false then (.finished, [])
    else (.listening (served + 1), [.data (p.reply served name),
      .event (.info ("  reply #" ++ toString (served + 1).toNat ++ ": " ++ wire.showName name))])

/-- `run_server`, once registered. -/
def serverStep : Server → Arrival → Server × List Output
  | .start, a =>
    let next := answer wire p 0 a
    (next.1, (listeningEvents wire p keyText).map .event ++ next.2)
  | .listening served, a => answer wire p served a
  | .finished, _ => (.finished, [])

end Server

/-- What the server has answered with so far. -/
def replies (os : List Output) : List PingData := os.filterMap Output.data?

@[simp] theorem replies_append (os ps : List Output) :
    replies (os ++ ps) = replies os ++ replies ps := List.filterMap_append

@[simp] theorem replies_map_event (es : List ToolEvent) : replies (es.map .event) = [] := by
  rw [replies, List.filterMap_map]
  exact List.filterMap_none es

section Replies

variable {wire : Wire} {p : PingServerParams} {keyText : String}

/-- The replies are numbered as long as the server goes on. -/
structure Numbered (p : PingServerParams) (ds : List PingData) : Prop where
  eq_reply : ∀ k d, ds[k]? = some d → d = p.reply (UInt64.ofNat k) d.name

/-- No reply has been sent. -/
theorem numbered_nil : Numbered p [] where
  eq_reply _ _ h := absurd h (by simp)

/-- The next reply carries the next number. -/
theorem Numbered.snoc {ds : List PingData} (h : Numbered p ds) (name : Name) :
    Numbered p (ds ++ [p.reply (UInt64.ofNat ds.length) name]) where
  eq_reply k d hk := by
    rcases Nat.lt_trichotomy k ds.length with hlt | rfl | hgt
    · rw [List.getElem?_append_left hlt] at hk
      exact h.eq_reply k d hk
    · rw [List.getElem?_append_right (Nat.le_refl _), Nat.sub_self] at hk
      obtain rfl := Option.some.inj hk
      rfl
    · rw [List.getElem?_eq_none (by simp; omega)] at hk
      cases hk

/-- The counter is the number of the replies. -/
def Server.Counts (ds : List PingData) : Server → Prop
  | .start => ds = []
  | .listening served => served = UInt64.ofNat ds.length
  | .finished => True

private theorem numbered_answer (wire : Wire) {os : List Output} (h : Numbered p (replies os))
    (a : Arrival) :
    let next := answer wire p (UInt64.ofNat (replies os).length) a
    Numbered p (replies (os ++ next.2)) ∧ next.1.Counts (replies (os ++ next.2)) := by
  have hquiet : Numbered p (replies (os ++ [])) := by rwa [List.append_nil]
  cases a with
  | isClosed => exact ⟨hquiet, trivial⟩
  | disconnected => exact ⟨hquiet, trivial⟩
  | packet interest signOk sendOk =>
    cases interest with
    | none =>
      refine ⟨hquiet, ?_⟩
      show UInt64.ofNat (replies os).length = UInt64.ofNat (replies (os ++ [])).length
      rw [List.append_nil]
    | some name =>
      rw [answer]
      split_ifs with hsign hsend
      · exact ⟨hquiet, trivial⟩
      · exact ⟨hquiet, trivial⟩
      · dsimp only
        rw [replies_append]
        refine ⟨h.snoc name, ?_⟩
        simp only [Server.Counts, replies, List.filterMap_cons, Output.data?, List.length_append,
          List.length_singleton, List.filterMap_nil]
        exact (UInt64.ofNat_add _ _).symm

/-- The replies of the server are numbered in the order in which they go out. -/
theorem numbered_step {s : Server} {os : List Output} (h : Numbered p (replies os))
    (hs : s.Counts (replies os)) (a : Arrival) :
    let next := serverStep wire p keyText s a
    Numbered p (replies (os ++ next.2)) ∧ next.1.Counts (replies (os ++ next.2)) := by
  cases s with
  | start =>
    have hlistening : replies (os ++ (listeningEvents wire p keyText).map .event) = [] := by
      rw [replies_append, replies_map_event, List.append_nil]
      exact hs
    have hnil : Numbered p (replies (os ++ (listeningEvents wire p keyText).map .event)) := by
      rw [hlistening]
      exact numbered_nil
    have hnext := numbered_answer wire hnil a
    dsimp only at hnext
    rw [hlistening, List.append_assoc] at hnext
    exact hnext
  | listening served =>
    obtain rfl : served = _ := hs
    exact numbered_answer wire h a
  | finished => exact ⟨by rwa [serverStep, List.append_nil], trivial⟩

end Replies

end NdnFwd.Ping
