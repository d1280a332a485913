import Mathlib.Data.List.Basic

/-!
# A forwarder that remembers who asked

Tasks hang on faces. What a task sends waits until the forwarder takes it up, and what
the forwarder passes on waits until a task takes it; both in any order. A request is
noted and passed on along its route. Data goes to the faces that asked for its name,
and uses their requests up; unasked data is dropped.
-/

namespace NdnFwd

/-- What travels. -/
inductive Message (ρ δ : Type*)
  /-- A request. -/
  | request (q : ρ)
  /-- Data. -/
  | data (d : δ)
  deriving DecidableEq, Repr

/-- How a forwarder reads and routes messages. -/
structure Routing (ν φ ρ δ : Type*) where
  /-- The name requested. -/
  asked : ρ → ν
  /-- The name of data. -/
  named : δ → ν
  /-- The faces a request is passed on to. -/
  route : ν → List φ

/-- Pending requests, and messages on their way to the forwarder and from it. -/
structure Forwarder (ν φ ρ δ : Type*) where
  /-- Who asked for what. -/
  pending : List (ν × φ)
  /-- Messages sent by the tasks. -/
  up : List (φ × Message ρ δ)
  /-- Messages passed on to the tasks. -/
  down : List (φ × Message ρ δ)

namespace Forwarder

variable {ν φ ρ δ : Type*}

/-- Nothing pending, nothing on its way. -/
def idle : Forwarder ν φ ρ δ := ⟨[], [], []⟩

/-- A task sends messages. -/
def send (f : Forwarder ν φ ρ δ) (face : φ) (ms : List (Message ρ δ)) : Forwarder ν φ ρ δ :=
  { f with up := f.up ++ ms.map fun m => (face, m) }

/-- A task takes the `k`th message that waits. -/
def take (f : Forwarder ν φ ρ δ) (k : Nat) : Forwarder ν φ ρ δ :=
  { f with down := f.down.eraseIdx k }

/-- The `k`th pending request expires. -/
def expire (f : Forwarder ν φ ρ δ) (k : Nat) : Forwarder ν φ ρ δ :=
  { f with pending := f.pending.eraseIdx k }

variable (R : Routing ν φ ρ δ)

/-- What a forwarder guarantees: if each face asks only for names in `asks`, and all data sent
is in `good`, then a face is handed only requests routed to it and good data it asked for. -/
structure Lawful (asks : φ → ν → Prop) (good : δ → Prop) (f : Forwarder ν φ ρ δ) : Prop where
  /-- Pending requests were asked. -/
  pending : ∀ e ∈ f.pending, asks e.2 e.1
  /-- Requests on their way to the forwarder are asked. -/
  upRequest : ∀ face q, (face, Message.request q) ∈ f.up → asks face (R.asked q)
  /-- Data on its way to the forwarder is good. -/
  upData : ∀ face d, (face, Message.data d) ∈ f.up → good d
  /-- Requests on their way to a task were routed there. -/
  downRequest : ∀ face q, (face, Message.request q) ∈ f.down → face ∈ R.route (R.asked q)
  /-- Data on its way to a task was asked for, and is good. -/
  downData : ∀ face d, (face, Message.data d) ∈ f.down → asks face (R.named d) ∧ good d

variable {R} {asks : φ → ν → Prop} {good : δ → Prop} {f : Forwarder ν φ ρ δ}

/-- Nothing has been sent. -/
theorem lawful_idle : Lawful R asks good (idle : Forwarder ν φ ρ δ) where
  pending _ h := absurd h List.not_mem_nil
  upRequest _ _ h := absurd h List.not_mem_nil
  upData _ _ h := absurd h List.not_mem_nil
  downRequest _ _ h := absurd h List.not_mem_nil
  downData _ _ h := absurd h List.not_mem_nil

/-- More may be asked, and more data may be good. -/
theorem Lawful.mono (h : f.Lawful R asks good) {asks' : φ → ν → Prop} {good' : δ → Prop}
    (ha : ∀ face n, asks face n → asks' face n) (hg : ∀ d, good d → good' d) :
    f.Lawful R asks' good' where
  pending e he := ha _ _ (h.pending e he)
  upRequest face q hq := ha _ _ (h.upRequest face q hq)
  upData face d hd := hg d (h.upData face d hd)
  downRequest := h.downRequest
  downData face d hd := (h.downData face d hd).imp (ha _ _) (hg d)

/-- A face sends what it may. -/
theorem Lawful.send (h : f.Lawful R asks good) {face : φ} {ms : List (Message ρ δ)}
    (hq : ∀ q, Message.request q ∈ ms → asks face (R.asked q))
    (hd : ∀ d, Message.data d ∈ ms → good d) : (f.send face ms).Lawful R asks good where
  pending := h.pending
  upRequest face' q hin := by
    rcases List.mem_append.mp hin with hin | hin
    · exact h.upRequest face' q hin
    · obtain ⟨m, hm, he⟩ := List.mem_map.mp hin
      obtain ⟨rfl, rfl⟩ := Prod.mk.inj he
      exact hq q hm
  upData face' d hin := by
    rcases List.mem_append.mp hin with hin | hin
    · exact h.upData face' d hin
    · obtain ⟨m, hm, he⟩ := List.mem_map.mp hin
      obtain ⟨rfl, rfl⟩ := Prod.mk.inj he
      exact hd d hm
  downRequest := h.downRequest
  downData := h.downData

/-- A message is taken. -/
theorem Lawful.take (h : f.Lawful R asks good) (k : Nat) : (f.take k).Lawful R asks good where
  pending := h.pending
  upRequest := h.upRequest
  upData := h.upData
  downRequest face q hq := h.downRequest face q (List.mem_of_mem_eraseIdx hq)
  downData face d hd := h.downData face d (List.mem_of_mem_eraseIdx hd)

/-- A pending request expires. -/
theorem Lawful.expire (h : f.Lawful R asks good) (k : Nat) : (f.expire k).Lawful R asks good where
  pending e he := h.pending e (List.mem_of_mem_eraseIdx he)
  upRequest := h.upRequest
  upData := h.upData
  downRequest := h.downRequest
  downData := h.downData

section Forwarding

variable [DecidableEq ν] (R)

/-- Note a request and pass it on, unless it joins one for the same name. -/
def request (f : Forwarder ν φ ρ δ) (face : φ) (q : ρ) (aggregate : Bool) : Forwarder ν φ ρ δ :=
  let joins := aggregate && f.pending.any fun e => e.1 = R.asked q
  { f with
    pending := f.pending ++ [(R.asked q, face)]
    down := f.down ++ if joins then [] else (R.route (R.asked q)).map fun hop => (hop, .request q) }

/-- Pass data on to everyone who asked for it. -/
def data (f : Forwarder ν φ ρ δ) (d : δ) : Forwarder ν φ ρ δ :=
  { f with
    pending := f.pending.filter fun e => e.1 ≠ R.named d
    down := f.down ++ (f.pending.filter fun e => e.1 = R.named d).map fun e => (e.2, .data d) }

/-- The forwarder takes up the `k`th message sent. -/
def forward (f : Forwarder ν φ ρ δ) (k : Nat) (aggregate : Bool) : Forwarder ν φ ρ δ :=
  let rest := { f with up := f.up.eraseIdx k }
  match f.up[k]? with
  | some (face, .request q) => rest.request R face q aggregate
  | some (_, .data d) => rest.data R d
  | none => f

variable {R}

/-- A request is noted and passed on. -/
theorem Lawful.request (h : f.Lawful R asks good) {face : φ} {q : ρ} (hq : asks face (R.asked q))
    (aggregate : Bool) : (f.request R face q aggregate).Lawful R asks good where
  pending e he := by
    rcases List.mem_append.mp he with he | he
    · exact h.pending e he
    · rw [List.mem_singleton.mp he]
      exact hq
  upRequest := h.upRequest
  upData := h.upData
  downRequest hop q' hin := by
    rcases List.mem_append.mp hin with hin | hin
    · exact h.downRequest hop q' hin
    · split_ifs at hin
      · cases hin
      · obtain ⟨hop', hhop, he⟩ := List.mem_map.mp hin
        obtain ⟨rfl, hm⟩ := Prod.mk.inj he
        rw [← Message.request.inj hm]
        exact hhop
  downData hop d hin := by
    rcases List.mem_append.mp hin with hin | hin
    · exact h.downData hop d hin
    · split_ifs at hin
      · cases hin
      · obtain ⟨hop', -, he⟩ := List.mem_map.mp hin
        cases (Prod.mk.inj he).2

/-- Data goes to those who asked for it. -/
theorem Lawful.data (h : f.Lawful R asks good) {d : δ} (hd : good d) :
    (f.data R d).Lawful R asks good where
  pending e he := h.pending e (List.mem_of_mem_filter he)
  upRequest := h.upRequest
  upData := h.upData
  downRequest hop q hin := by
    rcases List.mem_append.mp hin with hin | hin
    · exact h.downRequest hop q hin
    · obtain ⟨e, -, he⟩ := List.mem_map.mp hin
      cases (Prod.mk.inj he).2
  downData hop d' hin := by
    rcases List.mem_append.mp hin with hin | hin
    · exact h.downData hop d' hin
    · obtain ⟨e, hpending, he⟩ := List.mem_map.mp hin
      obtain ⟨hasked, hname⟩ := List.mem_filter.mp hpending
      obtain ⟨rfl, hm⟩ := Prod.mk.inj he
      rw [← Message.data.inj hm]
      refine ⟨?_, hd⟩
      rw [← of_decide_eq_true hname]
      exact h.pending e hasked

/-- The forwarder keeps its guarantee, whatever it takes up next. -/
theorem Lawful.forward (h : f.Lawful R asks good) (k : Nat) (aggregate : Bool) :
    (f.forward R k aggregate).Lawful R asks good := by
  have hrest : Lawful R asks good { f with up := f.up.eraseIdx k } :=
    { pending := h.pending
      upRequest := fun face q hq => h.upRequest face q (List.mem_of_mem_eraseIdx hq)
      upData := fun face d hd => h.upData face d (List.mem_of_mem_eraseIdx hd)
      downRequest := h.downRequest
      downData := h.downData }
  rw [Forwarder.forward]
  split
  next face q hk => exact hrest.request (h.upRequest face q (List.mem_of_getElem? hk)) aggregate
  next face d hk => exact hrest.data (h.upData face d (List.mem_of_getElem? hk))
  · exact h

end Forwarding

end Forwarder

end NdnFwd
