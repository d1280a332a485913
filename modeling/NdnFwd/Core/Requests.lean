import Mathlib.Logic.Basic

/-!
# Programs over a store that may refuse

A program reads and writes a store one request at a time, and any request may be refused. A refused
request leaves the store as it was and ends the program with an error. What a program does is said
once for whatever is refused: the answers it may give and the stores it may leave behind.
-/

namespace NdnFwd

/-- A store, and how the requests still to come turn out: refused for a reason, or granted. -/
structure Served (σ τ : Type) where
  store : σ
  refusals : Nat → Option τ

/-- A program of requests. -/
abbrev Requests (σ τ ε : Type) := EStateM ε (Served σ τ)

namespace Requests

variable {σ τ ε α β : Type}

/-- One request: the store answers and changes, unless it refuses. -/
def request (refused : τ → ε) (act : σ → α × σ) : Requests σ τ ε α := fun s =>
  let later : Nat → Option τ := fun i => s.refusals (i + 1)
  match s.refusals 0 with
  | none => .ok (act s.store).1 ⟨(act s.store).2, later⟩
  | some why => .error (refused why) ⟨s.store, later⟩

/-- `?` on a result. -/
def ofExcept : Except ε α → Requests σ τ ε α
  | .ok a => pure a
  | .error e => throw e

/-- The answer of a program and what it leaves behind. -/
def outcome : EStateM.Result ε (Served σ τ) α → Except ε α × Served σ τ
  | .ok a s => (.ok a, s)
  | .error e s => (.error e, s)

/-- The store refuses for such reasons only. -/
def RefusesFor (F : τ → Prop) (refusals : Nat → Option τ) : Prop :=
  ∀ i why, refusals i = some why → F why

/-- Started on that store, the program ends as described, whatever is refused. -/
def Yields (F : τ → Prop) (store : σ) (x : Requests σ τ ε α)
    (Q : Except ε α → σ → Prop) : Prop :=
  ∀ refusals, RefusesFor F refusals →
    RefusesFor F (outcome (x ⟨store, refusals⟩)).2.refusals ∧
      Q (outcome (x ⟨store, refusals⟩)).1 (outcome (x ⟨store, refusals⟩)).2.store

variable {F : τ → Prop} {s : σ} {x : Requests σ τ ε α} {f : α → Requests σ τ ε β}
  {P Q : Except ε α → σ → Prop} {R : Except ε β → σ → Prop}

namespace Yields

/-- More may hold of the result. -/
theorem mono (h : Yields F s x P) (hPQ : ∀ r s', P r s' → Q r s') : Yields F s x Q :=
  fun refusals hr => ⟨(h refusals hr).1, hPQ _ _ (h refusals hr).2⟩

/-- A value is returned. -/
theorem pure {a : α} (h : Q (.ok a) s) : Yields F s (Pure.pure a : Requests σ τ ε α) Q :=
  fun _ hr => ⟨hr, h⟩

/-- An error is returned. -/
theorem throw {e : ε} (h : Q (.error e) s) : Yields F s (throw e : Requests σ τ ε α) Q :=
  fun _ hr => ⟨hr, h⟩

/-- The second part starts from what the first one left, and does not start after an error. -/
theorem bind (hx : Yields F s x P) (hok : ∀ a s', P (.ok a) s' → Yields F s' (f a) R)
    (herror : ∀ e s', P (.error e) s' → R (.error e) s') : Yields F s (x >>= f) R := by
  intro refusals hr
  have hrun := hx refusals hr
  have hbind : (x >>= f) ⟨s, refusals⟩ = EStateM.bind x f ⟨s, refusals⟩ := rfl
  rw [hbind, EStateM.bind]
  cases hcase : x ⟨s, refusals⟩ with
  | ok a s' =>
    rw [hcase] at hrun
    exact hok a s'.store hrun.2 s'.refusals hrun.1
  | error e s' =>
    rw [hcase] at hrun
    exact ⟨hrun.1, herror e s'.store hrun.2⟩

/-- A request is granted or refused. -/
theorem request {refused : τ → ε} {act : σ → α × σ} (hok : Q (.ok (act s).1) (act s).2)
    (herror : ∀ why, F why → Q (.error (refused why)) s) :
    Yields F s (Requests.request refused act) Q := by
  intro refusals hr
  have hlater : RefusesFor F fun i => refusals (i + 1) := fun i => hr (i + 1)
  cases hcase : refusals 0 with
  | none =>
    simp only [Requests.request, hcase]
    exact ⟨hlater, hok⟩
  | some why =>
    simp only [Requests.request, hcase]
    exact ⟨hlater, herror why (hr 0 why hcase)⟩

end Yields

/-- The program leaves the store alone and answers so, unless a request is refused. -/
def Reads (F : τ → Prop) (refused : τ → ε) (s : σ) (x : Requests σ τ ε α) (r : Except ε α) : Prop :=
  Yields F s x fun r' s' => s' = s ∧ (r' = r ∨ ∃ why, F why ∧ r' = .error (refused why))

namespace Reads

variable {refused : τ → ε} {r : Except ε α} {r' : Except ε β}

/-- A value is read without a request. -/
theorem pure (a : α) : Reads F refused s (Pure.pure a : Requests σ τ ε α) (.ok a) :=
  Yields.pure ⟨rfl, .inl rfl⟩

/-- An error is read without a request. -/
theorem throw (e : ε) : Reads F refused s (throw e : Requests σ τ ε α) (.error e) :=
  Yields.throw ⟨rfl, .inl rfl⟩

/-- A result is read without a request. -/
theorem ofExcept (r : Except ε α) : Reads F refused s (Requests.ofExcept r) r := by
  cases r with
  | ok a => exact pure a
  | error e => exact throw e

/-- A request that only reads. -/
theorem request (act : σ → α) :
    Reads F refused s (Requests.request refused fun s => (act s, s)) (.ok (act s)) :=
  Yields.request ⟨rfl, .inl rfl⟩ fun why hF => ⟨rfl, .inr ⟨why, hF, rfl⟩⟩

/-- One read after another answers as the two together. -/
theorem bind {g : α → Except ε β} (hx : Reads F refused s x r)
    (hf : ∀ a, r = .ok a → Reads F refused s (f a) (g a)) :
    Reads F refused s (x >>= f) (r.bind g) := by
  apply Yields.bind hx
  · rintro a s' ⟨rfl, hr | ⟨why, -, hwhy⟩⟩
    · rw [← hr]
      exact hf a hr.symm
    · cases hwhy
  · rintro e s' ⟨rfl, hr | ⟨why, hF, hwhy⟩⟩
    · rw [← hr]
      exact ⟨rfl, .inl rfl⟩
    · exact ⟨rfl, .inr ⟨why, hF, congrArg Except.error (Except.error.inj hwhy)⟩⟩

/-- What follows a read that succeeds. -/
theorem after {a : α} (hx : Reads F refused s x (.ok a)) (hf : Reads F refused s (f a) r') :
    Reads F refused s (x >>= f) r' :=
  hx.bind (g := fun _ => r') fun _ ha => Except.ok.inj ha ▸ hf

/-- A function is applied to what is read. -/
theorem map (g : α → β) (hx : Reads F refused s x r) : Reads F refused s (g <$> x) (r.map g) := by
  rw [map_eq_pure_bind]
  have hbind := hx.bind (f := fun a => Pure.pure (g a)) fun a _ => pure (g a)
  cases r with
  | ok a => exact hbind
  | error e => exact hbind

end Reads

/-- The program leaves every store alone. -/
def Keeps (x : Requests σ τ ε α) : Prop :=
  ∀ (F : τ → Prop) (s : σ), Yields F s x fun _ s' => s' = s

namespace Keeps

/-- A value is returned. -/
theorem pure (a : α) : Keeps (Pure.pure a : Requests σ τ ε α) := fun _ _ => Yields.pure rfl

/-- An error is returned. -/
theorem throw (e : ε) : Keeps (throw e : Requests σ τ ε α) := fun _ _ => Yields.throw rfl

/-- A result is returned. -/
theorem ofExcept (r : Except ε α) : Keeps (Requests.ofExcept r : Requests σ τ ε α) := by
  cases r with
  | ok a => exact pure a
  | error e => exact throw e

/-- A request that only reads. -/
theorem request (refused : τ → ε) (act : σ → α) :
    Keeps (Requests.request refused fun s => (act s, s)) :=
  fun _ _ => Yields.request rfl fun _ _ => rfl

/-- One computation follows another. -/
theorem bind (hx : Keeps x) (hf : ∀ a, Keeps (f a)) : Keeps (x >>= f) := by
  intro F s
  apply (hx F s).bind
  · rintro a _ rfl
    exact hf a F _
  · rintro e _ rfl
    rfl

/-- A function is applied to the value. -/
theorem map (g : α → β) (hx : Keeps x) : Keeps (g <$> x) := by
  rw [map_eq_pure_bind]
  exact hx.bind fun a => pure (g a)

end Keeps

end Requests

end NdnFwd
