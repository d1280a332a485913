import NdnFwd.Core.Machine
import NdnFwd.Core.Text
import NdnFwd.Models.Packet.Name

/-!
# The identity of the forwarder

At each start the forwarder takes its signing key from a key base on disk, or makes one there if
the configuration or the operator lets it. Where neither works it signs with a key of its own that
is gone with the process. The disk goes from one start to the next.
-/

namespace NdnFwd.Identity

/-- `[security]`, as far as it concerns the identity. -/
structure SecurityConfig where
  identity : Option String
  pibPath : Option String
  autoInit : Bool
  ephemeralPrefix : Option String
  deriving DecidableEq, Repr

/-- The two places that call `SecurityManager::auto_init`. -/
inductive Place
  | startup | menu
  deriving DecidableEq, Repr

/-- What one start finds: its environment, the operator, and how the calls into the security
library turn out on the key bases `π`, with keys `κ`. -/
structure Host (π κ : Type*) where
  home : Option String
  hostname : Option String
  pid : Nat
  /-- Whether standard input and standard error are terminals. -/
  isTerminal : Bool
  /-- The line at the prompt. -/
  input : String
  /-- `SecurityManager::auto_init`: the key base that it leaves, the key and whether it is new. -/
  autoInit : Place → Name → π → π × Except String (κ × Bool)
  /-- `FilePib::open`. -/
  openPib : π → Except String Unit
  /-- `SecurityManager::from_pib`. -/
  fromPib : Name → π → Except String κ
  /-- `KeyChain::ephemeral_ecdsa`. -/
  ephemeral : String → Except String κ

/-- `SecurityInit`. -/
structure SecurityInit (κ : Type*) where
  /-- The signer of `mgr`. -/
  signer : Option κ
  pibPath : Option String
  isEphemeral : Bool
  deriving DecidableEq, Repr

/-- How a start ends. -/
inductive Outcome (κ : Type*)
  | started (init : SecurityInit κ)
  /-- `exit(1)`. -/
  | aborted
  deriving DecidableEq, Repr

/-- A call of `auto_init`, with its result. -/
structure Call (κ : Type*) where
  path : String
  identity : Name
  result : Except String (κ × Bool)

/-- The key base at each path. Paths that are written differently are taken for different ones,
though two of them may lead to one directory. -/
abbrev Disk (π : Type*) := String → π

section Load

variable {π κ : Type*}

/-- `PathBuf::push` with a relative path. -/
def push (path segment : String) : String :=
  if path.toList.getLast? = none ∨ path.toList.getLast? = some '/' then path ++ segment
  else path ++ "/" ++ segment

/-- `default_pib_path`. -/
def defaultPibPath (home : Option String) : String := push (push (home.getD "/tmp") ".ndn") "pib"

/-- The name of a key that is not kept. -/
def ephemeralName (cfg : SecurityConfig) (host : Host π κ) : String :=
  match cfg.ephemeralPrefix with
  | some name => name
  | none => "/ndn-fwd/" ++ host.hostname.getD ("pid-" ++ toString host.pid)

/-- `make_ephemeral`. -/
def makeEphemeral (cfg : SecurityConfig) (host : Host π κ) : SecurityInit κ :=
  match host.ephemeral (ephemeralName cfg host) with
  | .ok key => ⟨some key, none, true⟩
  | .error _ => ⟨none, none, true⟩

/-- The answer at the prompt. -/
def choice (host : Host π κ) : List Char := Text.trim host.input.toList

/-- A call of `auto_init` on the base at a path. -/
def autoInitAt (host : Host π κ) (place : Place) (path : String) (identity : Name) (d : Disk π) :
    Disk π × Call κ :=
  (Function.update d path (host.autoInit place identity (d path)).1,
    ⟨path, identity, (host.autoInit place identity (d path)).2⟩)

/-- `recover_from_pib_error`. -/
def recoverFromPibError (cfg : SecurityConfig) (host : Host π κ) (identity : Name) (path : String)
    (d : Disk π) : Disk π × List (Call κ) × Outcome κ :=
  if host.isTerminal then
    if choice host = ['1'] then
      let (next, call) := autoInitAt host .menu path identity d
      match call.result with
      | .ok (key, _) => (next, [call], .started ⟨some key, some path, false⟩)
      | .error _ => (next, [call], .started (makeEphemeral cfg host))
    else if choice host = ['3'] then (d, [], .aborted)
    else (d, [], .started (makeEphemeral cfg host))
  else (d, [], .started (makeEphemeral cfg host))

/-- Where the key base is. -/
def pibPathOf (cfg : SecurityConfig) (host : Host π κ) : String :=
  cfg.pibPath.getD (defaultPibPath host.home)

/-- `parse_name`. -/
def parseName (parse : String → Option Name) (uri : String) : Name := (parse uri).getD []

/-- `load_security`. -/
def loadSecurity (parse : String → Option Name) (cfg : SecurityConfig) (host : Host π κ)
    (d : Disk π) : Disk π × List (Call κ) × Outcome κ :=
  match cfg.identity with
  | none => (d, [], .started (makeEphemeral cfg host))
  | some uri =>
    let path := pibPathOf cfg host
    let identity := parseName parse uri
    if cfg.autoInit then
      let (next, call) := autoInitAt host .startup path identity d
      match call.result with
      | .ok (key, _) => (next, [call], .started ⟨some key, some path, false⟩)
      | .error _ =>
        let (next, calls, outcome) := recoverFromPibError cfg host identity path next
        (next, call :: calls, outcome)
    else
      match host.openPib (d path) with
      | .error _ => recoverFromPibError cfg host identity path d
      | .ok () =>
        match host.fromPib identity (d path) with
        | .ok key => (d, [], .started ⟨some key, some path, false⟩)
        | .error _ => recoverFromPibError cfg host identity path d

/-- A start, with its configuration. -/
structure Start (π κ : Type*) where
  cfg : SecurityConfig
  host : Host π κ

/-- The disk from start to start, and the calls of `auto_init` along the way. -/
def starts (parse : String → Option Name) : Machine (Disk π) (Start π κ) (Call κ) where
  step d s := ((loadSecurity parse s.cfg s.host d).1, (loadSecurity parse s.cfg s.host d).2.1)

end Load

section Laws

variable {π κ : Type*}

/-- What `auto_init` and `from_pib` promise, `keyOf` being the key that a key base holds under a
name. Nothing is known about the key under its own name after a call that failed. -/
structure Host.Lawful (host : Host π κ) (keyOf : π → Name → Option κ) : Prop where
  loaded : ∀ {place identity base base' key},
    host.autoInit place identity base = (base', .ok (key, false)) →
      keyOf base identity = some key ∧ keyOf base' identity = some key
  generated : ∀ {place identity base base' key},
    host.autoInit place identity base = (base', .ok (key, true)) → keyOf base' identity = some key
  others : ∀ {place identity base name}, name ≠ identity →
    keyOf (host.autoInit place identity base).1 name = keyOf base name
  fromPib : ∀ {identity base key}, host.fromPib identity base = .ok key →
    keyOf base identity = some key

/-- A call under this name that made a key there, or failed. -/
def Call.Rekeys (call : Call κ) (path : String) (name : Name) : Prop :=
  call.path = path ∧ call.identity = name ∧ ∀ key, call.result ≠ .ok (key, false)

/-- The start has this identity at this path. -/
def Start.Has (s : Start π κ) (parse : String → Option Name) (path : String) (name : Name) : Prop :=
  (∃ uri, s.cfg.identity = some uri ∧ parseName parse uri = name) ∧ pibPathOf s.cfg s.host = path

/-- The configuration or the operator lets the start make a key. -/
def Start.MayInit (s : Start π κ) : Prop :=
  s.cfg.autoInit = true ∨ s.host.isTerminal = true ∧ choice s.host = ['1']

/-- It goes on with this identity from this path, and signs with this key. -/
def Start.GoesOn (s : Start π κ) (parse : String → Option Name) (d : Disk π) (path : String)
    (name : Name) (key : κ) : Prop :=
  s.Has parse path name ∧
    (loadSecurity parse s.cfg s.host d).2.2 = .started ⟨some key, some path, false⟩

end Laws

section Calls

variable {π κ : Type*} {keyOf : π → Name → Option κ} {host : Host π κ}

private theorem autoInitAt_keeps (h : host.Lawful keyOf) {place : Place} {path path' : String}
    {identity name : Name} {d : Disk π}
    (hcall : ¬(autoInitAt host place path identity d).2.Rekeys path' name) :
    keyOf ((autoInitAt host place path identity d).1 path') name = keyOf (d path') name := by
  unfold autoInitAt at hcall ⊢
  dsimp only at hcall ⊢
  by_cases hpath : path' = path
  · subst hpath
    rw [Function.update_self]
    by_cases hname : name = identity
    · subst hname
      have hloaded : ∃ key, (host.autoInit place name (d path')).2 = .ok (key, false) := by
        by_contra hne
        exact hcall ⟨rfl, rfl, fun key hkey => hne ⟨key, hkey⟩⟩
      obtain ⟨key, hkey⟩ := hloaded
      obtain ⟨hbefore, hafter⟩ := h.loaded (Prod.ext rfl hkey)
      rw [hbefore, hafter]
    · exact h.others hname
  · rw [Function.update_of_ne hpath]

/-- The key of a call that did not fail is the one under its name afterwards. -/
theorem autoInitAt_key (h : host.Lawful keyOf) {place : Place} {path : String} {identity : Name}
    {d : Disk π} {key : κ} {generated : Bool}
    (hcall : (autoInitAt host place path identity d).2.result = .ok (key, generated)) :
    keyOf ((autoInitAt host place path identity d).1 path) identity = some key := by
  unfold autoInitAt at hcall ⊢
  dsimp only at hcall ⊢
  rw [Function.update_self]
  cases generated with
  | false => exact (h.loaded (Prod.ext rfl hcall)).2
  | true => exact h.generated (Prod.ext rfl hcall)

end Calls

section Sound

variable {π κ : Type*} {keyOf : π → Name → Option κ} {host : Host π κ} {cfg : SecurityConfig}
  {path : String} {identity : Name} {d : Disk π} {allowed : Prop}

/-- What a start may do with an identity at a path: it calls `auto_init` only for that and only
where it may, it leaves all keys but those of its calls, and it goes on with the key that is there
or with one that it does not keep. -/
structure Sound (keyOf : π → Name → Option κ) (path : String) (identity : Name) (allowed : Prop)
    (d : Disk π) (r : Disk π × List (Call κ) × Outcome κ) : Prop where
  calls : ∀ call ∈ r.2.1, call.path = path ∧ call.identity = identity ∧ allowed
  keeps : ∀ path' name, (∀ call ∈ r.2.1, ¬call.Rekeys path' name) →
    keyOf (r.1 path') name = keyOf (d path') name
  signer : ∀ init, r.2.2 = .started init → init.pibPath = none ∧ init.isEphemeral = true ∨
    ∃ key, init = ⟨some key, some path, false⟩ ∧ keyOf (r.1 path) identity = some key

private theorem makeEphemeral_eq (cfg : SecurityConfig) (host : Host π κ) :
    (makeEphemeral cfg host).pibPath = none ∧ (makeEphemeral cfg host).isEphemeral = true := by
  unfold makeEphemeral
  split <;> exact ⟨rfl, rfl⟩

private theorem sound_ephemeral : Sound keyOf path identity allowed d
    (d, [], .started (makeEphemeral cfg host)) where
  calls _ hcall := absurd hcall List.not_mem_nil
  keeps _ _ _ := rfl
  signer init hinit := by
    obtain rfl := Outcome.started.inj hinit
    exact Or.inl (makeEphemeral_eq cfg host)

private theorem sound_aborted : Sound keyOf path identity allowed d (d, [], .aborted) where
  calls _ hcall := absurd hcall List.not_mem_nil
  keeps _ _ _ := rfl
  signer _ hinit := by cases hinit

/-- A call, and what comes after it. -/
theorem sound_call (h : host.Lawful keyOf) (hallowed : allowed) {place : Place}
    {r : Disk π × List (Call κ) × Outcome κ}
    (hr : Sound keyOf path identity allowed (autoInitAt host place path identity d).1 r) :
    Sound keyOf path identity allowed d
      (r.1, (autoInitAt host place path identity d).2 :: r.2.1, r.2.2) where
  calls call hcall := by
    rcases List.mem_cons.mp hcall with rfl | hcall
    · exact ⟨rfl, rfl, hallowed⟩
    · exact hr.calls call hcall
  keeps path' name hcalls := by
    obtain ⟨hfirst, hrest⟩ := List.forall_mem_cons.mp hcalls
    exact (hr.keeps path' name hrest).trans (autoInitAt_keeps h hfirst)
  signer := hr.signer

private theorem sound_key {key : κ} (hkey : keyOf (d path) identity = some key) :
    Sound keyOf path identity allowed d (d, [], .started ⟨some key, some path, false⟩) where
  calls _ hcall := absurd hcall List.not_mem_nil
  keeps _ _ _ := rfl
  signer init hinit := by
    obtain rfl := Outcome.started.inj hinit
    exact Or.inr ⟨key, rfl, hkey⟩

private theorem sound_recover (h : host.Lawful keyOf)
    (hallowed : host.isTerminal = true → choice host = ['1'] → allowed) :
    Sound keyOf path identity allowed d (recoverFromPibError cfg host identity path d) := by
  unfold recoverFromPibError
  split_ifs with hterminal hone hthree
  · dsimp only
    split
    · next key _ hresult =>
      exact sound_call h (hallowed hterminal hone) (sound_key (autoInitAt_key h hresult))
    · exact sound_call h (hallowed hterminal hone) sound_ephemeral
  · exact sound_aborted
  · exact sound_ephemeral
  · exact sound_ephemeral

private theorem sound_load {parse : String → Option Name} {uri : String} (h : host.Lawful keyOf)
    (huri : cfg.identity = some uri) :
    Sound keyOf (pibPathOf cfg host) (parseName parse uri) (Start.MayInit ⟨cfg, host⟩) d
      (loadSecurity parse cfg host d) := by
  have hmenu : host.isTerminal = true → choice host = ['1'] → Start.MayInit ⟨cfg, host⟩ :=
    fun hterminal hone => Or.inr ⟨hterminal, hone⟩
  unfold loadSecurity
  rw [huri]
  dsimp only
  split_ifs with hauto
  · have hallowed : Start.MayInit ⟨cfg, host⟩ := Or.inl hauto
    split
    · next key _ hresult => exact sound_call h hallowed (sound_key (autoInitAt_key h hresult))
    · exact sound_call h hallowed (sound_recover h hmenu)
  · split
    · exact sound_recover h hmenu
    · split
      · next key hkey => exact sound_key (h.fromPib hkey)
      · exact sound_recover h hmenu

end Sound

section Runs

variable {π κ : Type*} {keyOf : π → Name → Option κ} {parse : String → Option Name}
  {d : Disk π} {s s₁ s₂ : Start π κ} {path : String} {name : Name} {key key₁ key₂ : κ}

private theorem step_none (h : s.cfg.identity = none) (d : Disk π) :
    (starts parse).step d s = (d, []) := by
  have hload : loadSecurity parse s.cfg s.host d =
      (d, [], .started (makeEphemeral s.cfg s.host)) := by
    unfold loadSecurity
    rw [h]
  exact congrArg (fun r => (r.1, r.2.1)) hload

/-- Calls are made only with an identity, and only where a key may be made. -/
theorem step_call (h : s.host.Lawful keyOf) {call : Call κ}
    (hcall : call ∈ ((starts parse).step d s).2) :
    s.Has parse call.path call.identity ∧ s.MayInit := by
  cases huri : s.cfg.identity with
  | none =>
    rw [step_none huri] at hcall
    cases hcall
  | some uri =>
    obtain ⟨hpath, hidentity, hallowed⟩ := (sound_load h huri).calls call hcall
    exact ⟨⟨⟨uri, huri, hidentity.symm⟩, hpath.symm⟩, hallowed⟩

/-- A start that makes no key keeps the keys. -/
theorem step_keeps (h : s.host.Lawful keyOf)
    (hcalls : ∀ call ∈ ((starts parse).step d s).2, ¬call.Rekeys path name) :
    keyOf (((starts parse).step d s).1 path) name = keyOf (d path) name := by
  cases huri : s.cfg.identity with
  | none => rw [step_none huri]
  | some uri => exact (sound_load h huri).keeps path name hcalls

private theorem key_of_goesOn (h : s.host.Lawful keyOf) (hon : s.GoesOn parse d path name key) :
    keyOf (((starts parse).step d s).1 path) name = some key := by
  obtain ⟨⟨⟨uri, huri, rfl⟩, rfl⟩, hstarted⟩ := hon
  rcases (sound_load h huri).signer _ hstarted with ⟨hpath, -⟩ | ⟨key', hinit, hkey⟩
  · cases hpath
  · obtain rfl := Option.some.inj (congrArg SecurityInit.signer hinit)
    exact hkey

/-- A start that is not aborted goes on with its identity, or with a key that it does not keep. -/
theorem goesOn_of_started (h : s.host.Lawful keyOf) {init : SecurityInit κ}
    (hinit : (loadSecurity parse s.cfg s.host d).2.2 = .started init) :
    init.pibPath = none ∧ init.isEphemeral = true ∨
      ∃ path name key, init = ⟨some key, some path, false⟩ ∧ s.GoesOn parse d path name key := by
  cases huri : s.cfg.identity with
  | none =>
    unfold loadSecurity at hinit
    rw [huri] at hinit
    obtain rfl := Outcome.started.inj hinit
    exact Or.inl (makeEphemeral_eq s.cfg s.host)
  | some uri =>
    rcases (sound_load h huri).signer init hinit with hnone | ⟨key, rfl, -⟩
    · exact Or.inl hnone
    · exact Or.inr ⟨_, _, key, rfl, ⟨⟨uri, huri, rfl⟩, rfl⟩, hinit⟩

/-- A start since then that had this identity at this path made a key there, or failed to, and it
was allowed to by its configuration or by the operator. -/
def RekeyedIn (parse : String → Option Name) (path : String) (name : Name) (d : Disk π)
    (later : List (Start π κ)) : Prop :=
  ∃ v ∈ (starts parse).visits d later, v.2.Has parse path name ∧ v.2.MayInit ∧
    ∃ call ∈ ((starts parse).step v.1 v.2).2, call.Rekeys path name

/-- Until a start makes a key, the key stays. -/
theorem run_keeps {later : List (Start π κ)} (hlaw : ∀ s ∈ later, s.host.Lawful keyOf)
    (hkey : keyOf (d path) name = some key) (hrekeyed : ¬RekeyedIn parse path name d later) :
    keyOf ((starts parse).run d later path) name = some key := by
  refine (starts parse).run_of_visits (I := fun d => keyOf (d path) name = some key)
    (G := fun v => v.2.host.Lawful keyOf ∧
      ∀ call ∈ ((starts parse).step v.1 v.2).2, ¬call.Rekeys path name)
    (fun d s hd hs => (step_keeps hs.1 hs.2).trans hd) hkey fun v hv => ?_
  obtain ⟨js, ks, hlater, -⟩ := (starts parse).exists_of_mem_visits hv
  have hhost : v.2.host.Lawful keyOf := hlaw v.2 (by simp [hlater])
  refine ⟨hhost, fun call hcall hrekeys => hrekeyed ?_⟩
  obtain ⟨hhas, hmay⟩ := step_call hhost hcall
  rw [hrekeys.1, hrekeys.2.1] at hhas
  exact ⟨v, hv, hhas, hmay, call, hcall, hrekeys⟩

/-- Two starts that go on with one identity sign with the same key, unless one since the first has
made a key for it or failed to. -/
theorem signer_lasts {between : List (Start π κ)} (hfirst : s₁.host.Lawful keyOf)
    (hlater : ∀ s ∈ between ++ [s₂], s.host.Lawful keyOf) (h₁ : s₁.GoesOn parse d path name key₁)
    (h₂ : s₂.GoesOn parse ((starts parse).run d (s₁ :: between)) path name key₂) :
    key₁ = key₂ ∨ RekeyedIn parse path name ((starts parse).step d s₁).1 (between ++ [s₂]) := by
  by_cases hrekeyed : RekeyedIn parse path name ((starts parse).step d s₁).1 (between ++ [s₂])
  · exact Or.inr hrekeyed
  · left
    have hkept := run_keeps hlater (key_of_goesOn hfirst h₁) hrekeyed
    rw [Machine.run_snoc] at hkept
    have hkey := key_of_goesOn (hlater s₂ (List.mem_append_right _ (List.mem_singleton_self _))) h₂
    rw [Machine.run_cons, hkept] at hkey
    exact Option.some.inj hkey

/-- Keys are numbered, and a start makes the key of its process id. A broken base cannot be read,
only written. -/
def memoryHost (pid : Nat) (isTerminal broken : Bool) (input : String) :
    Host (List (Name × Nat)) Nat where
  home := none
  hostname := none
  pid := pid
  isTerminal := isTerminal
  input := input
  autoInit _ identity base :=
    match broken, base.lookup identity with
    | false, some key => (base, .ok (key, false))
    | _, _ => ((identity, pid) :: base, .ok (pid, true))
  openPib _ := .ok ()
  fromPib identity base :=
    match broken, base.lookup identity with
    | false, some key => .ok key
    | _, _ => .error "no key"
  ephemeral _ := .ok pid

private theorem memoryHost_lawful (pid : Nat) (isTerminal broken : Bool) (input : String) :
    (memoryHost pid isTerminal broken input).Lawful fun base name => base.lookup name where
  loaded {_ identity base base' key} h := by
    unfold memoryHost at h
    dsimp only at h
    split at h
    · next hlookup =>
      cases h
      exact ⟨hlookup, hlookup⟩
    · cases h
  generated {_ identity base base' key} h := by
    unfold memoryHost at h
    dsimp only at h
    split at h
    · cases h
    · cases h
      exact List.lookup_cons_self
  others {_ identity base name} hne := by
    unfold memoryHost
    dsimp only
    split
    · rfl
    · rw [List.lookup_cons, beq_eq_false_iff_ne.mpr hne]
  fromPib {identity base key} h := by
    unfold memoryHost at h
    dsimp only at h
    split at h
    · next hlookup =>
      cases h
      exact hlookup
    · cases h

/-- A configuration with an identity, which leaves the rest to the operator. -/
def alice : SecurityConfig := ⟨some "/alice", none, false, none⟩

/-- It makes its key. -/
def initialized : Start (List (Name × Nat)) Nat :=
  ⟨{ alice with autoInit := true }, memoryHost 1 false false ""⟩

/-- It does not get at the key and goes on without. -/
def unattended : Start (List (Name × Nat)) Nat := ⟨alice, memoryHost 2 false true ""⟩

/-- Nor does this one, and the operator has a new key made. -/
def attended : Start (List (Name × Nat)) Nat := ⟨alice, memoryHost 3 true true " 1\n"⟩

/-- A parser that reads one name. -/
def parseAlice (_ : String) : Option Name := some [.generic [0x61]]

/-- An operator lets a later start make a new key. -/
theorem attended_rekeys :
    initialized.GoesOn parseAlice (fun _ => []) "/tmp/.ndn/pib" [.generic [0x61]] 1 ∧
      attended.GoesOn parseAlice ((starts parseAlice).run (fun _ => []) [initialized, unattended])
        "/tmp/.ndn/pib" [.generic [0x61]] 3 ∧
      (1 = 3 ∨ RekeyedIn parseAlice "/tmp/.ndn/pib" [.generic [0x61]]
        ((starts parseAlice).step (fun _ => []) initialized).1 ([unattended] ++ [attended])) := by
  have hinitialized : initialized.GoesOn parseAlice (fun _ => []) "/tmp/.ndn/pib"
      [.generic [0x61]] 1 := ⟨⟨⟨"/alice", rfl, rfl⟩, by decide⟩, by decide⟩
  have hattended : attended.GoesOn parseAlice ((starts parseAlice).run (fun _ => [])
      [initialized, unattended]) "/tmp/.ndn/pib" [.generic [0x61]] 3 :=
    ⟨⟨⟨"/alice", rfl, rfl⟩, by decide⟩, by decide⟩
  refine ⟨hinitialized, hattended,
    signer_lasts (memoryHost_lawful 1 false false "") ?_ hinitialized hattended⟩
  rintro s hs
  rcases List.mem_append.mp hs with hs | hs
  · obtain rfl := List.mem_singleton.mp hs
    exact memoryHost_lawful 2 false true ""
  · obtain rfl := List.mem_singleton.mp hs
    exact memoryHost_lawful 3 true true " 1\n"

end Runs

end NdnFwd.Identity
