import NdnFwd.Core.Machine

/-!
# A client and a server over an unreliable network

The network remembers every message ever handed to it. It may deliver a message
late, out of order, any number of times, or never. Requests of other clients
reach the server as well. The composition rule below splits a safety proof into
one obligation per party, each stated about the messages the other one emits.
-/

namespace NdnFwd

/-- A client, a server, and every message that ever entered the network. -/
structure Net (σ τ req rep : Type*) where
  /-- State of the requesting task. -/
  client : σ
  /-- State of the replying task. -/
  server : τ
  /-- Requests the client has sent. -/
  requests : List req
  /-- Replies the server has sent. -/
  replies : List rep

/-- How inputs of the two machines hand over messages. -/
structure Wiring (ι κ req rep : Type*) where
  /-- The reply that an input delivers to the client, if it delivers one. -/
  carries : ι → Option rep
  /-- The request that an input delivers to the server, if it delivers one. -/
  asks : κ → Option req
  /-- A reply may reach the client only in answer to the requests it has sent. -/
  answers : List req → rep → Prop
  /-- Requests that other clients may send to the server. -/
  foreign : req → Prop

namespace Net

variable {σ τ ι κ req rep : Type*}

/-- One resumption of either party; delivered messages were sent before. -/
inductive Step (C : Machine σ ι req) (S : Machine τ κ rep) (W : Wiring ι κ req rep) :
    Net σ τ req rep → Net σ τ req rep → Prop
  | client (n : Net σ τ req rep) (i : ι)
      (h : ∀ r, W.carries i = some r → r ∈ n.replies ∧ W.answers n.requests r) :
      Step C S W n { n with
        client := (C.step n.client i).1
        requests := n.requests ++ (C.step n.client i).2 }
  | server (n : Net σ τ req rep) (k : κ)
      (h : ∀ q, W.asks k = some q → q ∈ n.requests ∨ W.foreign q) :
      Step C S W n { n with
        server := (S.step n.server k).1
        replies := n.replies ++ (S.step n.server k).2 }

/-- States reachable under any interleaving of the two parties and any delivery. -/
def Reaches (C : Machine σ ι req) (S : Machine τ κ rep) (W : Wiring ι κ req rep) :
    Net σ τ req rep → Net σ τ req rep → Prop :=
  Relation.ReflTransGen (Step C S W)

variable {C : Machine σ ι req} {S : Machine τ κ rep} {W : Wiring ι κ req rep}

/-- Assume-guarantee composition: a server that emits only replies in `P`, and a
client whose invariant needs no more of a reply than `P`, keep both invariants. -/
theorem Reaches.invariant {I : σ → Prop} {J : τ → Prop} {P : rep → Prop}
    (hC : ∀ s i, I s → (∀ r, W.carries i = some r → P r) → I (C.step s i).1)
    (hS : ∀ t k, J t → J (S.step t k).1 ∧ ∀ r ∈ (S.step t k).2, P r)
    {n n' : Net σ τ req rep} (h : Reaches C S W n n')
    (hI : I n.client) (hJ : J n.server) (hP : ∀ r ∈ n.replies, P r) :
    I n'.client ∧ J n'.server ∧ ∀ r ∈ n'.replies, P r := by
  induction h with
  | refl => exact ⟨hI, hJ, hP⟩
  | tail _ hstep ih =>
    obtain ⟨hi, hj, hp⟩ := ih
    cases hstep with
    | client i hcarried =>
      exact ⟨hC _ i hi fun r hr => hp r (hcarried r hr).1, hj, hp⟩
    | server k _ =>
      obtain ⟨hj', hout⟩ := hS _ k hj
      refine ⟨hi, hj', fun r hr => ?_⟩
      exact (List.mem_append.mp hr).elim (hp r) (hout r)

end Net

end NdnFwd
