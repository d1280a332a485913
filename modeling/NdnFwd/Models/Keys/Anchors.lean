import NdnFwd.Models.Keys.Sec

/-!
# What `anchor remove` removes

The command resolves the identity through the listing of the keys and removes the
anchor of that one name. It does what it says in exactly the states in which no other
name under the identity is an anchor.
-/

namespace NdnFwd.Sec

variable {π : Type*} (lib : PacketLib) (f : FilePib π)

/-- The trust anchors, of a base that may not exist. -/
def anchors (s : Option π) : List Name :=
  match s with
  | some p => f.listAnchors p
  | none => []

/-- The certificate name an identity resolves to. -/
def resolved (s : Option π) (identity : Name) : Option Name :=
  s.bind fun p => findCertName f p identity

/-- In this state: if `anchor remove` succeeds then no anchor under the identity is left, and
it succeeds if there is one. -/
def RemovesAnchors (s : Option π) (identity : Name) : Prop :=
  ((runCommand lib f s (.anchorRemove identity)).2 = .ok () →
      ∀ a ∈ anchors f (runCommand lib f s (.anchorRemove identity)).1, ¬keyPrefix identity <+: a) ∧
    ((∃ a ∈ anchors f s, keyPrefix identity <+: a) →
      (runCommand lib f s (.anchorRemove identity)).2 = .ok ())

variable {lib f}

/-- What `anchor remove` does when it succeeds. -/
theorem anchorRemove_ok_iff {s : Option π} {identity : Name} :
    (runCommand lib f s (.anchorRemove identity)).2 = .ok () ↔
      ∃ p c p', s = some p ∧ findCertName f p identity = some c ∧
        f.removeTrustAnchor c p = some p' ∧
        (runCommand lib f s (.anchorRemove identity)).1 = some p' := by
  cases s with
  | none => simp [runCommand, opened]
  | some p =>
    simp only [runCommand, opened, cmdAnchorRemove]
    cases hc : findCertName f p identity with
    | none => simp [hc]
    | some c => cases hr : f.removeTrustAnchor c p <;> simp [hc, hr]

/-- In any state, `anchor remove` keeps its promise exactly when every anchor under the identity
is the name the identity resolves to. -/
theorem removesAnchors_iff_resolved (hf : f.AnchorLaws) (s : Option π) (identity : Name) :
    RemovesAnchors lib f s identity ↔
      ∀ a ∈ anchors f s, keyPrefix identity <+: a → resolved f s identity = some a := by
  constructor
  · rintro ⟨hgone, hok⟩ a ha hpre
    have hsucc := hok ⟨a, ha, hpre⟩
    obtain ⟨p, c, p', rfl, hc, hr, hstate⟩ := anchorRemove_ok_iff.mp hsucc
    have hleft := hgone hsucc a
    rw [hstate] at hleft
    have hac : a = c := by
      by_contra hne
      exact hleft ((hf.removes p p' c hr a).mpr ⟨ha, hne⟩) hpre
    rw [hac]
    exact hc
  · intro hall
    constructor
    · intro hsucc a ha hpre
      obtain ⟨p, c, p', rfl, hc, hr, hstate⟩ := anchorRemove_ok_iff.mp hsucc
      rw [hstate] at ha
      obtain ⟨hold, hne⟩ := (hf.removes p p' c hr a).mp ha
      have hres : some c = some a := hc.symm.trans (hall a hold hpre)
      exact hne (Option.some.inj hres).symm
    · rintro ⟨a, ha, hpre⟩
      have hres := hall a ha hpre
      obtain ⟨p, rfl, hc⟩ := Option.bind_eq_some_iff.mp hres
      obtain ⟨p', hr⟩ := Option.isSome_iff_exists.mp (hf.removable p a ha)
      refine anchorRemove_ok_iff.mpr ⟨p, a, p', rfl, hc, hr, ?_⟩
      simp [runCommand, opened, cmdAnchorRemove, hc, hr]

/-- In every state that a sequence of commands reaches, `anchor remove` removes the anchors of an
identity exactly when each of them is the name the identity resolves to. -/
theorem anchors_removed_iff (hf : f.AnchorLaws) (cmds : List Command) (identity : Name) :
    RemovesAnchors lib f ((sec lib f).run none cmds) identity ↔
      ∀ a ∈ anchors f ((sec lib f).run none cmds), keyPrefix identity <+: a →
        resolved f ((sec lib f).run none cmds) identity = some a :=
  removesAnchors_iff_resolved hf _ identity

section Memory

/-- A base in memory: three separate stores, each in the order of insertion. -/
structure MemoryPib where
  /-- Names of the keys. -/
  keys : List Name
  /-- Certificates. -/
  certs : List Certificate
  /-- Names of the trust anchors. -/
  trusted : List Name
  deriving DecidableEq, Repr

/-- The operations of a base in memory. A SafeBag is the identity's last component. -/
def memoryPib : FilePib MemoryPib where
  create := ⟨[], [], []⟩
  generate _ name p := some ({ p with keys := p.keys.filter (· ≠ name) ++ [name] }, [])
  storeCert _ cert p := some { p with certs := cert :: p.certs }
  getCert name p := p.certs.find? fun cert => cert.name = name
  safebagCertName wire := some (buildCertName .conventions 0 [.generic wire])
  storeSafebag name _ _ p :=
    let cert : Certificate := ⟨name, [], 0, 0, .ed25519⟩
    some (⟨p.keys.filter (· ≠ name) ++ [name], cert :: p.certs, p.trusted⟩, cert)
  deleteKey name p :=
    some ⟨p.keys.filter (· ≠ name), p.certs.filter fun cert => cert.name ≠ name, p.trusted⟩
  addTrustAnchor name _ p := some { p with trusted := p.trusted.filter (· ≠ name) ++ [name] }
  removeTrustAnchor name p :=
    if name ∈ p.trusted then some { p with trusted := p.trusted.filter (· ≠ name) } else none
  listKeys p := p.keys
  listAnchors p := p.trusted

/-- A base in memory does what is documented of anchors. -/
theorem memoryPib_anchorLaws : memoryPib.AnchorLaws where
  removable p n hn := by
    have hmem : n ∈ p.trusted := hn
    simp [memoryPib, hmem]
  removes p p' n hr a := by
    simp only [memoryPib, Option.ite_none_right_eq_some, Option.some.injEq] at hr
    obtain ⟨-, rfl⟩ := hr
    simp [memoryPib]

/-- An identity. -/
def router : Name := [.generic (asBytes "router")]

/-- One key, made an anchor, can be removed. -/
theorem router_anchor_removed :
    RemovesAnchors .conventions memoryPib
      ((sec .conventions memoryPib).run none [.keygen router .ed25519 true 365 false 1 0]) router :=
  (anchors_removed_iff memoryPib_anchorLaws _ router).mpr (by decide)

/-- Two keys of one identity, both anchors: the second stays trusted. One key, an anchor,
deleted: its anchor can no longer be removed. -/
theorem router_anchor_not_removed :
    ¬RemovesAnchors .conventions memoryPib
        ((sec .conventions memoryPib).run none [.keygen router .ed25519 true 365 false 1 0,
          .keygen router .ed25519 true 365 false 2 0]) router ∧
      ¬RemovesAnchors .conventions memoryPib
        ((sec .conventions memoryPib).run none [.keygen router .ed25519 true 365 false 1 0,
          .delete router]) router := by
  constructor
  · rintro ⟨hgone, -⟩
    exact hgone rfl (buildCertName .conventions 2 router) (List.mem_singleton.mpr rfl)
      (List.prefix_append _ _)
  · rintro ⟨-, hok⟩
    have hfail := hok ⟨buildCertName .conventions 1 router, List.mem_singleton.mpr rfl,
      List.prefix_append _ _⟩
    cases hfail

end Memory

end NdnFwd.Sec
