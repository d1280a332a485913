import Mathlib.Data.List.Perm.Basic
import NdnFwd.Core.Forwarder

/-!
# What lies between the tasks

A network is sent messages by faces, and when it is left to itself it may hand one over to a face.
Whatever it does on the way (routing, joining, caching, losing, delaying), one relies on two things:
data that is handed over has been sent, and each of it answers a request of the face of its own.
-/

namespace NdnFwd

/-- A network of faces. The number stands for whatever decides what it does next. -/
structure Network (σ φ ρ δ : Type*) where
  /-- The state before any message. -/
  start : σ
  /-- A face sends a message. -/
  accept : σ → φ → Message ρ δ → σ
  /-- The network is left to itself. -/
  hand : σ → Nat → σ × Option (φ × Message ρ δ)

/-- What passes between a network and its faces. -/
inductive Crossing (φ ρ δ : Type*)
  /-- To the network. -/
  | sent (face : φ) (m : Message ρ δ)
  /-- From it. -/
  | handed (face : φ) (m : Message ρ δ)

namespace Network

variable {σ φ ρ δ : Type*} (N : Network σ φ ρ δ)

/-- A face sends messages, one after the other. -/
def acceptAll (s : σ) (face : φ) (ms : List (Message ρ δ)) : σ :=
  ms.foldl (fun s m => N.accept s face m) s

/-- Where a network can get to, and what has passed until then, oldest first. -/
inductive Reaches : List (Crossing φ ρ δ) → σ → Prop
  | start : Reaches [] N.start
  | accept {ts : List (Crossing φ ρ δ)} {s : σ} (h : Reaches ts s) (face : φ)
      (m : Message ρ δ) : Reaches (ts ++ [Crossing.sent face m]) (N.accept s face m)
  | hand {ts : List (Crossing φ ρ δ)} {s : σ} (h : Reaches ts s) (k : Nat) :
      Reaches (ts ++ ((N.hand s k).2.map fun e => .handed e.1 e.2).toList) (N.hand s k).1

variable {N}

/-- A row of messages is sent. -/
theorem Reaches.acceptAll {ts : List (Crossing φ ρ δ)} {s : σ} (h : N.Reaches ts s) (face : φ)
    (ms : List (Message ρ δ)) : N.Reaches (ts ++ ms.map (.sent face)) (N.acceptAll s face ms) := by
  induction ms generalizing ts s with
  | nil => simpa [Network.acceptAll] using h
  | cons m ms ih =>
    have hrest := ih (h.accept face m)
    rwa [List.append_assoc] at hrest

/-- A message is handed over. -/
theorem Reaches.handed {ts : List (Crossing φ ρ δ)} {s s' : σ} (h : N.Reaches ts s) {k : Nat}
    {face : φ} {m : Message ρ δ} (hk : N.hand s k = (s', some (face, m))) :
    N.Reaches (ts ++ [Crossing.handed face m]) s' := by
  have hnext := h.hand k
  rwa [hk] at hnext

/-- Nothing is handed over. -/
theorem Reaches.quiet {ts : List (Crossing φ ρ δ)} {s s' : σ} (h : N.Reaches ts s) {k : Nat}
    (hk : N.hand s k = (s', none)) : N.Reaches ts s' := by
  have hnext := h.hand k
  rw [hk] at hnext
  simpa using hnext

end Network

section Law

variable {σ ν φ ρ δ : Type*} [DecidableEq φ]

/-- The face sends a request that data under this name may answer. -/
def Crossing.asks (mayAnswer : ν → ρ → Bool) (face : φ) (n : ν) : Crossing φ ρ δ → Bool
  | sent hop (.request q) => hop = face ∧ mayAnswer n q
  | sent _ (.data _) | handed .. => false

section Asks

variable (mayAnswer : ν → ρ → Bool) (ts : List (Crossing φ ρ δ)) (face hop : φ) (n : ν)

/-- A request is counted. -/
theorem countP_asks_request (q : ρ) :
    (ts ++ [Crossing.sent hop (.request q)]).countP (Crossing.asks mayAnswer face n) =
      ts.countP (Crossing.asks mayAnswer face n) +
        if hop = face ∧ mayAnswer n q = true then 1 else 0 := by
  rw [List.countP_append, List.countP_singleton]
  simp [Crossing.asks]

/-- So are the requests of a row. -/
theorem countP_asks_requests (qs : List ρ) :
    (ts ++ (qs.map Message.request).map (Crossing.sent (δ := δ) face)).countP
        (Crossing.asks mayAnswer face n) =
      ts.countP (Crossing.asks mayAnswer face n) + qs.countP (mayAnswer n) := by
  rw [List.countP_append, List.map_map, List.countP_map]
  congr 1
  apply List.countP_congr
  intro q _
  simp [Crossing.asks]

/-- Other faces do not ask for this one. -/
theorem countP_asks_of_ne {hop face : φ} (h : hop ≠ face) (ms : List (Message ρ δ)) :
    (ts ++ ms.map (Crossing.sent hop)).countP (Crossing.asks mayAnswer face n) =
      ts.countP (Crossing.asks mayAnswer face n) := by
  have hnone : (ms.map (Crossing.sent hop)).countP (Crossing.asks mayAnswer face n) = 0 := by
    rw [List.countP_eq_zero]
    rintro e he
    obtain ⟨m, -, rfl⟩ := List.mem_map.mp he
    cases m with
    | request q => simp [Crossing.asks, h]
    | data d => exact Bool.false_ne_true
  rw [List.countP_append, hnone, Nat.add_zero]

/-- Data asks for nothing. -/
theorem countP_asks_data (d : δ) :
    (ts ++ [Crossing.sent hop (.data d)]).countP (Crossing.asks mayAnswer face n) =
      ts.countP (Crossing.asks mayAnswer face n) := by
  rw [List.countP_append, List.countP_singleton]
  rfl

/-- What is handed over asks for nothing. -/
theorem countP_asks_handed (m : Message ρ δ) :
    (ts ++ [Crossing.handed hop m]).countP (Crossing.asks mayAnswer face n) =
      ts.countP (Crossing.asks mayAnswer face n) := by
  rw [List.countP_append, List.countP_singleton]
  rfl

end Asks

variable [DecidableEq ν]

/-- The face is handed data under this name. -/
def Crossing.brings (named : δ → ν) (face : φ) (n : ν) : Crossing φ ρ δ → Bool
  | handed hop (.data d) => hop = face ∧ named d = n
  | handed _ (.request _) | sent .. => false

section Brings

variable (named : δ → ν) (ts : List (Crossing φ ρ δ)) (face hop : φ) (n : ν) (m : Message ρ δ)

/-- What is sent brings nothing. -/
theorem countP_brings_sends (ms : List (Message ρ δ)) :
    (ts ++ ms.map (Crossing.sent hop)).countP (Crossing.brings named face n) =
      ts.countP (Crossing.brings named face n) := by
  have hnone : (ms.map (Crossing.sent hop)).countP (Crossing.brings named face n) = 0 := by
    rw [List.countP_eq_zero]
    rintro e he
    obtain ⟨m, -, rfl⟩ := List.mem_map.mp he
    exact Bool.false_ne_true
  rw [List.countP_append, hnone, Nat.add_zero]

/-- Neither does a single message. -/
theorem countP_brings_sent :
    (ts ++ [Crossing.sent hop m]).countP (Crossing.brings named face n) =
      ts.countP (Crossing.brings named face n) := countP_brings_sends named ts face hop n [m]

/-- Data handed over is counted. -/
theorem countP_brings_handed :
    (ts ++ [Crossing.handed hop m]).countP (Crossing.brings named face n) =
      ts.countP (Crossing.brings named face n) +
        if (Crossing.handed hop m).brings named face n then 1 else 0 := by
  rw [List.countP_append, List.countP_singleton]

end Brings

/-- What one relies on, given the name of data and the requests it may answer. -/
structure Network.Lawful (mayAnswer : ν → ρ → Bool) (named : δ → ν) (N : Network σ φ ρ δ) :
    Prop where
  /-- Data uses up a request of the face that it is handed to. -/
  answers : ∀ ts s, N.Reaches ts s → ∀ face n,
    ts.countP (Crossing.brings named face n) ≤ ts.countP (Crossing.asks mayAnswer face n)
  /-- Data comes from a face. -/
  source : ∀ ts s, N.Reaches ts s → ∀ face d, .handed face (.data d) ∈ ts →
    ∃ hop, .sent hop (.data d) ∈ ts

end Law

/-- A forwarder with a content store. -/
structure Caching (φ ρ δ : Type*) where
  /-- Who asked for what. -/
  pending : List (ρ × φ)
  /-- Data that was asked for. -/
  store : List δ
  /-- Messages to be handed over. -/
  queue : List (φ × Message ρ δ)

namespace Caching

section Network

variable {ν φ ρ δ : Type*} [DecidableEq ρ] (mayAnswer : ν → ρ → Bool) (named : δ → ν)
  (route : ρ → List φ)

/-- Answer a request from the store, or else note it and pass it on, unless it joins another. -/
def request (s : Caching φ ρ δ) (face : φ) (q : ρ) : Caching φ ρ δ :=
  match s.store.find? fun d => mayAnswer (named d) q with
  | some d => { s with queue := s.queue ++ [(face, .data d)] }
  | none =>
    { s with
      pending := s.pending ++ [(q, face)]
      queue := s.queue ++ if s.pending.any fun e => e.1 = q then []
        else (route q).map fun hop => (hop, .request q) }

/-- Pass data on to everyone who asked for it, and keep it. Unasked data is dropped. -/
def data (s : Caching φ ρ δ) (d : δ) : Caching φ ρ δ where
  pending := s.pending.filter fun e => !mayAnswer (named d) e.1
  store := if s.pending.any fun e => mayAnswer (named d) e.1 then s.store ++ [d] else s.store
  queue := s.queue ++
    (s.pending.filter fun e => mayAnswer (named d) e.1).map fun e => (e.2, .data d)

/-- As a network, which hands over what waits in any order. -/
def network : Network (Caching φ ρ δ) φ ρ δ where
  start := ⟨[], [], []⟩
  accept s face m :=
    match m with
    | .request q => s.request mayAnswer named route face q
    | .data d => s.data mayAnswer named d
  hand s k := ({ s with queue := s.queue.eraseIdx k }, s.queue[k]?)

end Network

section Law

variable {ν φ ρ δ : Type*} {mayAnswer : ν → ρ → Bool} {named : δ → ν} {route : ρ → List φ}
  {ts : List (Crossing φ ρ δ)} {s : Caching φ ρ δ}

/-- What was sent stays sent. -/
theorem sent_append {d : δ} (h : ∃ hop, .sent hop (.data d) ∈ ts) (more : List (Crossing φ ρ δ)) :
    ∃ hop, .sent hop (.data d) ∈ ts ++ more :=
  h.imp fun _ => List.mem_append_left more

variable [DecidableEq ν] [DecidableEq φ]

/-- A message that waits would bring a face data under a name. -/
def waits (named : δ → ν) (face : φ) (n : ν) (e : φ × Message ρ δ) : Bool :=
  (Crossing.handed e.1 e.2).brings named face n

/-- A pending request of a face may be answered by data under a name. -/
def hopes (mayAnswer : ν → ρ → Bool) (face : φ) (n : ν) (e : ρ × φ) : Bool :=
  e.2 = face ∧ mayAnswer n e.1

/-- Data that was handed over, or waits, or may still answer a request, does so for a request of
its own; and all data was sent. -/
structure Sound (mayAnswer : ν → ρ → Bool) (named : δ → ν) (ts : List (Crossing φ ρ δ))
    (s : Caching φ ρ δ) : Prop where
  owed : ∀ face n, ts.countP (Crossing.brings named face n) + s.queue.countP (waits named face n) +
    s.pending.countP (hopes mayAnswer face n) ≤ ts.countP (Crossing.asks mayAnswer face n)
  queued : ∀ face d, (face, .data d) ∈ s.queue → ∃ hop, .sent hop (.data d) ∈ ts
  stored : ∀ d ∈ s.store, ∃ hop, .sent hop (.data d) ∈ ts
  source : ∀ face d, .handed face (.data d) ∈ ts → ∃ hop, .sent hop (.data d) ∈ ts

/-- Nothing has been sent. -/
theorem sound_start : Sound mayAnswer named [] (⟨[], [], []⟩ : Caching φ ρ δ) where
  owed _ _ := Nat.le_refl 0
  queued _ _ h := absurd h List.not_mem_nil
  stored _ h := absurd h List.not_mem_nil
  source _ _ h := absurd h List.not_mem_nil

/-- A request is answered from the store. -/
theorem Sound.hit (h : Sound mayAnswer named ts s) (face : φ) {q : ρ} {d : δ}
    (hd : s.store.find? (fun d => mayAnswer (named d) q) = some d) :
    Sound mayAnswer named (ts ++ [Crossing.sent face (.request q)])
      { s with queue := s.queue ++ [(face, .data d)] } where
  owed hop n := by
    have howed := h.owed hop n
    have hanswers : mayAnswer (named d) q = true :=
      List.find?_some (p := fun d => mayAnswer (named d) q) hd
    have hle : (if waits named hop n (face, (.data d : Message ρ δ)) then 1 else 0) ≤
        if face = hop ∧ mayAnswer n q = true then 1 else 0 := by
      split_ifs with hwaits hanswer
      · exact Nat.le_refl 1
      · simp only [waits, Crossing.brings, decide_eq_true_eq] at hwaits
        obtain ⟨rfl, rfl⟩ := hwaits
        exact absurd ⟨rfl, hanswers⟩ hanswer
      · exact Nat.zero_le _
      · exact Nat.le_refl 0
    rw [countP_asks_request, countP_brings_sent]
    dsimp only
    rw [List.countP_append, List.countP_singleton]
    omega
  queued hop d' hd' := by
    rcases List.mem_append.mp hd' with hd' | hd'
    · exact sent_append (h.queued hop d' hd') _
    · cases List.mem_singleton.mp hd'
      exact sent_append (h.stored d (List.mem_of_find?_eq_some hd)) _
  stored d' hd' := sent_append (h.stored d' hd') _
  source hop d' hd' := by
    rcases List.mem_append.mp hd' with hd' | hd'
    · exact sent_append (h.source hop d' hd') _
    · cases List.mem_singleton.mp hd'

/-- A request is noted, and perhaps passed on. -/
theorem Sound.miss (h : Sound mayAnswer named ts s) (face : φ) (q : ρ) (hops : List φ) :
    Sound mayAnswer named (ts ++ [Crossing.sent face (.request q)])
      { s with
        pending := s.pending ++ [(q, face)]
        queue := s.queue ++ hops.map fun hop => (hop, .request q) } where
  owed hop n := by
    have howed := h.owed hop n
    have hquiet : (hops.map fun hop => (hop, (Message.request q : Message ρ δ))).countP
        (waits named hop n) = 0 := by
      rw [List.countP_eq_zero]
      rintro e he
      obtain ⟨hop', -, rfl⟩ := List.mem_map.mp he
      exact Bool.false_ne_true
    have hhopes : (hopes mayAnswer hop n (q, face) = true) ↔ face = hop ∧ mayAnswer n q = true := by
      simp [hopes]
    rw [countP_asks_request, countP_brings_sent]
    dsimp only
    rw [List.countP_append, hquiet, List.countP_append, List.countP_singleton]
    simp only [hhopes]
    omega
  queued hop d hd := by
    rcases List.mem_append.mp hd with hd | hd
    · exact sent_append (h.queued hop d hd) _
    · obtain ⟨hop', -, he⟩ := List.mem_map.mp hd
      cases (Prod.mk.inj he).2
  stored d hd := sent_append (h.stored d hd) _
  source hop d hd := by
    rcases List.mem_append.mp hd with hd | hd
    · exact sent_append (h.source hop d hd) _
    · cases List.mem_singleton.mp hd

/-- Data waits for those whose requests it uses up. -/
theorem countP_waits_data (mayAnswer : ν → ρ → Bool) (named : δ → ν) (face : φ) (n : ν) (d : δ)
    (pending : List (ρ × φ)) :
    ((pending.filter fun e => mayAnswer (named d) e.1).map fun e =>
        (e.2, (Message.data d : Message ρ δ))).countP (waits named face n) +
      (pending.filter fun e => !mayAnswer (named d) e.1).countP (hopes mayAnswer face n) ≤
    pending.countP (hopes mayAnswer face n) := by
  induction pending with
  | nil => exact Nat.le_refl 0
  | cons e pending ih =>
    obtain ⟨q, hop⟩ := e
    cases hanswers : mayAnswer (named d) q with
    | false =>
      simp only [List.filter_cons, hanswers, Bool.not_false, if_true, List.countP_cons,
        Bool.false_eq_true, if_false]
      omega
    | true =>
      have hle : (if waits named face n (hop, (Message.data d : Message ρ δ)) then 1 else 0) ≤
          if hopes mayAnswer face n (q, hop) then 1 else 0 := by
        split_ifs with hwaits hhopes
        · exact Nat.le_refl 1
        · simp only [waits, Crossing.brings, decide_eq_true_eq] at hwaits
          obtain ⟨rfl, rfl⟩ := hwaits
          exact absurd (by simp [hopes, hanswers]) hhopes
        · exact Nat.zero_le _
        · exact Nat.le_refl 0
      simp only [List.filter_cons, hanswers, Bool.not_true, if_true, List.countP_cons,
        Bool.false_eq_true, if_false, List.map_cons]
      omega

private theorem sound_data (h : Sound mayAnswer named ts s) (face : φ) (d : δ) :
    Sound mayAnswer named (ts ++ [Crossing.sent face (.data d)]) (s.data mayAnswer named d) := by
  have hnew : ∃ hop, .sent hop (.data d) ∈ ts ++ [Crossing.sent face (.data d)] :=
    ⟨face, List.mem_append_right _ (List.mem_singleton_self _)⟩
  refine ⟨fun hop n => ?_, fun hop d' hd => ?_, fun d' hd => ?_, fun hop d' hd => ?_⟩
  · have howed := h.owed hop n
    have hdata := countP_waits_data mayAnswer named hop n d s.pending
    rw [countP_asks_data, countP_brings_sent, data]
    dsimp only
    rw [List.countP_append]
    omega
  · rcases List.mem_append.mp hd with hd | hd
    · exact sent_append (h.queued hop d' hd) _
    · obtain ⟨e, -, he⟩ := List.mem_map.mp hd
      cases (Prod.mk.inj he).2
      exact hnew
  · rw [data] at hd
    dsimp only at hd
    split_ifs at hd
    · rcases List.mem_append.mp hd with hd | hd
      · exact sent_append (h.stored d' hd) _
      · rw [List.mem_singleton.mp hd]
        exact hnew
    · exact sent_append (h.stored d' hd) _
  · rcases List.mem_append.mp hd with hd | hd
    · exact sent_append (h.source hop d' hd) _
    · cases List.mem_singleton.mp hd

/-- What is handed over waits no longer. -/
theorem sound_hand (h : Sound mayAnswer named ts s) (k : Nat) :
    Sound mayAnswer named (ts ++ (s.queue[k]?.map fun e => .handed e.1 e.2).toList)
      { s with queue := s.queue.eraseIdx k } := by
  cases hk : s.queue[k]? with
  | none =>
    rw [List.eraseIdx_of_length_le (List.getElem?_eq_none_iff.mp hk)]
    simpa using h
  | some e =>
    dsimp only [Option.map, Option.toList]
    refine ⟨fun hop n => ?_, fun hop d hd => ?_, fun d hd => sent_append (h.stored d hd) _,
      fun hop d hd => ?_⟩
    · have howed := h.owed hop n
      have hqueue : (s.queue.eraseIdx k).countP (waits named hop n) +
          (if (Crossing.handed e.1 e.2).brings named hop n then 1 else 0) =
            s.queue.countP (waits named hop n) := by
        obtain ⟨hlt, he⟩ := List.getElem?_eq_some_iff.mp hk
        rw [← (List.getElem_cons_eraseIdx_perm hlt).countP_eq, List.countP_cons, he]
        rfl
      rw [countP_brings_handed, countP_asks_handed]
      dsimp only
      omega
    · exact sent_append (h.queued hop d (List.mem_of_mem_eraseIdx hd)) _
    · rcases List.mem_append.mp hd with hd | hd
      · exact sent_append (h.source hop d hd) _
      · obtain ⟨hface, hm⟩ := Crossing.handed.inj (List.mem_singleton.mp hd)
        have hqueued : (hop, Message.data d) = e := Prod.ext hface hm
        exact sent_append (h.queued hop d (hqueued ▸ List.mem_of_getElem? hk)) _

variable [DecidableEq ρ]

private theorem sound_request (h : Sound mayAnswer named ts s) (face : φ) (q : ρ) :
    Sound mayAnswer named (ts ++ [Crossing.sent face (.request q)])
      (s.request mayAnswer named route face q) := by
  rw [request]
  split
  next d hd => exact h.hit face hd
  · split_ifs
    · exact h.miss face q []
    · exact h.miss face q (route q)

private theorem sound_reaches (h : (network mayAnswer named route).Reaches ts s) :
    Sound mayAnswer named ts s := by
  induction h with
  | start => exact sound_start
  | accept _ face m ih =>
    cases m with
    | request q => exact sound_request ih face q
    | data d => exact sound_data ih face d
  | hand _ k ih => exact sound_hand ih k

/-- A forwarder with a content store does what one relies on. -/
theorem network_lawful : (network mayAnswer named route).Lawful mayAnswer named where
  answers ts s h face n := by
    have howed := (sound_reaches h).owed face n
    omega
  source ts s h := (sound_reaches h).source

end Law

end Caching

end NdnFwd
