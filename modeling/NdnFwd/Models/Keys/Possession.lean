import NdnFwd.Core.Latest
import NdnFwd.Models.Keys.Keygen

/-!
# Which keys a base has

A key is there from the moment the base has made or taken it, even if the command that asked for it
fails afterwards. Only a `delete` that resolves to it takes it away. Over a whole history of the
key tool, the keys of a base are those made since they were last deleted.
-/

namespace NdnFwd.Sec

/-- What is documented of the key store next to the others: a new base has no keys, making a key and
taking one from a SafeBag add that one, deleting a key takes out that one, and certificates and
anchors come and go without them. -/
structure FilePib.KeysApart {π : Type*} (f : FilePib π) : Prop where
  create : f.listKeys f.create = []
  generate : ∀ keyType n p p' pk, f.generate keyType n p = some (p', pk) →
    ∀ k, k ∈ f.listKeys p' ↔ k ∈ f.listKeys p ∨ k = n
  storeCert : ∀ n c p p', f.storeCert n c p = some p' →
    ∀ k, k ∈ f.listKeys p' ↔ k ∈ f.listKeys p
  storeSafebag : ∀ n wire password p p' c, f.storeSafebag n wire password p = some (p', c) →
    ∀ k, k ∈ f.listKeys p' ↔ k ∈ f.listKeys p ∨ k = n
  deleteKey : ∀ n p p', f.deleteKey n p = some p' →
    ∀ k, k ∈ f.listKeys p' ↔ k ∈ f.listKeys p ∧ k ≠ n
  addTrustAnchor : ∀ n c p p', f.addTrustAnchor n c p = some p' →
    ∀ k, k ∈ f.listKeys p' ↔ k ∈ f.listKeys p
  removeTrustAnchor : ∀ n p p', f.removeTrustAnchor n p = some p' →
    ∀ k, k ∈ f.listKeys p' ↔ k ∈ f.listKeys p

section Marks

variable {π : Type*} (lib : PacketLib) (f : FilePib π)

/-- The keys, of a base that may not exist. -/
def keys (s : Option π) : List Name :=
  match s with
  | some p => f.listKeys p
  | none => []

/-- The key that a command makes, or takes from a SafeBag. -/
def made (s : Option π) : Command → Option Name
  | .keygen name keyType _ _ skip keyId _ =>
    if skip = true ∧ (findCertName f (base f s) name).isSome = true then none
    else if (f.generate keyType (buildCertName lib keyId name) (base f s)).isSome = true then
      some (buildCertName lib keyId name)
    else none
  | .importBag wire password _ =>
    (f.safebagCertName wire).bind fun certName =>
      if (f.storeSafebag certName wire password (base f s)).isSome = true then some certName
      else none
  | .delete _ | .anchorAdd _ | .anchorRemove _ => none

/-- The key that it deletes. -/
def deleted (s : Option π) : Command → Option Name
  | .delete name =>
    s.bind fun p => (findCertName f p name).bind fun certName =>
      if (f.deleteKey certName p).isSome = true then some certName else none
  | _ => none

/-- The command makes this key. -/
def Makes (k : Name) (v : Option π × Command) : Prop := made lib f v.1 v.2 = some k

/-- The command deletes this key. -/
def Deletes (k : Name) (v : Option π × Command) : Prop := deleted f v.1 v.2 = some k

/-- In a history of commands on a new base, the key has been made and not been deleted again. -/
def Possessed (cmds : List Command) (k : Name) : Prop :=
  (sec lib f).SetLast (Makes lib f k) (Deletes f k) none cmds

/-- What a command on a base does to its keys. -/
def KeyEffect (p : π) (make delete : Option Name) (p' : π) : Prop :=
  ∀ k, k ∈ f.listKeys p' ↔ k ∈ f.listKeys p ∧ delete ≠ some k ∨ make = some k

end Marks

section Commands

variable {π : Type*} {lib : PacketLib} {f : FilePib π} {p p' : π} {make : Option Name}
  {name : Name}

private theorem keyEffect_quiet (h : ∀ k, k ∈ f.listKeys p' ↔ k ∈ f.listKeys p) :
    KeyEffect f p none none p' := by
  intro k
  simp [h]

private theorem keyEffect_made {n : Name} (h : ∀ k, k ∈ f.listKeys p' ↔ k ∈ f.listKeys p ∨ k = n) :
    KeyEffect f p (some n) none p' := by
  intro k
  simp [h, eq_comm]

private theorem listKeys_addAnchor (hf : f.KeysApart) (certName : Name) (cert : Certificate) (p : π)
    (k : Name) : k ∈ f.listKeys (addAnchor f certName cert p).1 ↔ k ∈ f.listKeys p := by
  rw [addAnchor]
  cases hadd : f.addTrustAnchor certName cert p with
  | none => exact Iff.rfl
  | some p' => exact hf.addTrustAnchor _ _ _ _ hadd k

private theorem keyEffect_cmdKeygen (hf : f.KeysApart) (p : π) (keyType : KeyType) (anchor : Bool)
    (days : Nat) (skip : Bool) (keyId now : UInt64) :
    KeyEffect f p (made lib f (some p) (.keygen name keyType anchor days skip keyId now)) none
      (cmdKeygen lib f name keyType anchor days skip keyId now p).1 := by
  rw [cmdKeygen, made, base, Option.getD_some]
  by_cases hskip : skip = true ∧ (findCertName f p name).isSome = true
  · rw [if_pos hskip, if_pos hskip]
    exact keyEffect_quiet fun k => Iff.rfl
  · rw [if_neg hskip, if_neg hskip]
    dsimp only
    cases hkey : f.generate keyType (buildCertName lib keyId name) p with
    | none => exact keyEffect_quiet fun k => Iff.rfl
    | some r =>
      obtain ⟨p₁, pk⟩ := r
      rw [if_pos (Option.isSome_some : (some (p₁, pk)).isSome = true)]
      apply keyEffect_made
      intro k
      rw [← hf.generate _ _ _ _ _ hkey k]
      dsimp only
      generalize hcert : f.storeCert (buildCertName lib keyId name) _ p₁ = r
      cases r with
      | none => exact Iff.rfl
      | some p₂ =>
        rw [← hf.storeCert _ _ _ _ hcert k]
        cases anchor with
        | false => exact Iff.rfl
        | true => exact listKeys_addAnchor hf _ _ _ k

private theorem keyEffect_cmdImport (hf : f.KeysApart) (p : π) (wire password : Bytes)
    (anchor : Bool) :
    KeyEffect f p (made lib f (some p) (.importBag wire password anchor)) none
      (cmdImport f wire password anchor p).1 := by
  rw [cmdImport, made, base, Option.getD_some]
  cases hname : f.safebagCertName wire with
  | none => exact keyEffect_quiet fun k => Iff.rfl
  | some certName =>
    rw [Option.bind_some]
    cases hstore : f.storeSafebag certName wire password p with
    | none =>
      dsimp only
      rw [hstore]
      exact keyEffect_quiet fun k => Iff.rfl
    | some r =>
      obtain ⟨p₁, stored⟩ := r
      rw [if_pos (Option.isSome_some : (some (p₁, stored)).isSome = true)]
      apply keyEffect_made
      intro k
      rw [← hf.storeSafebag _ _ _ _ _ _ hstore k]
      dsimp only
      rw [hstore]
      cases anchor with
      | false => exact Iff.rfl
      | true => exact listKeys_addAnchor hf _ _ _ k

private theorem keyEffect_cmdDelete (hf : f.KeysApart) (p : π) :
    KeyEffect f p none (deleted f (some p) (.delete name)) (cmdDelete f name p).1 := by
  rw [cmdDelete, deleted, Option.bind_some]
  cases findCertName f p name with
  | none => exact keyEffect_quiet fun k => Iff.rfl
  | some certName =>
    rw [Option.bind_some]
    dsimp only
    cases hdelete : f.deleteKey certName p with
    | none => exact keyEffect_quiet fun k => Iff.rfl
    | some p' =>
      intro k
      simp [hf.deleteKey _ _ _ hdelete k, eq_comm]

private theorem keyEffect_cmdAnchorAdd (hf : f.KeysApart) (p : π) :
    KeyEffect f p none none (cmdAnchorAdd f name p).1 := by
  apply keyEffect_quiet
  intro k
  rw [cmdAnchorAdd]
  cases findCertName f p name with
  | none => exact Iff.rfl
  | some certName =>
    dsimp only
    cases f.getCert certName p with
    | none => exact Iff.rfl
    | some cert => exact listKeys_addAnchor hf _ _ _ k

private theorem keyEffect_cmdAnchorRemove (hf : f.KeysApart) (p : π) :
    KeyEffect f p none none (cmdAnchorRemove f name p).1 := by
  apply keyEffect_quiet
  intro k
  rw [cmdAnchorRemove]
  cases findCertName f p name with
  | none => exact Iff.rfl
  | some certName =>
    dsimp only
    cases hremove : f.removeTrustAnchor certName p with
    | none => exact Iff.rfl
    | some p' => exact hf.removeTrustAnchor _ _ _ hremove k

/-- Where there is no base, the keys are those of a new one. -/
theorem mem_keys_base (hf : f.KeysApart) {s : Option π} {k : Name} :
    k ∈ f.listKeys (base f s) ↔ k ∈ keys f s := by
  cases s with
  | none =>
    rw [base, Option.getD_none, hf.create]
    rfl
  | some p => rfl

end Commands

section History

variable {π : Type*} {lib : PacketLib} {f : FilePib π}

/-- A command that opens the base does nothing without one. -/
theorem mem_keys_opened {cmd : π → π × Except SecError Unit} {s : Option π}
    {delete : Option Name} (hnone : s = none → delete = none)
    (h : ∀ p, s = some p → KeyEffect f p none delete (cmd p).1) (k : Name) :
    k ∈ keys f (opened cmd s).1 ↔
      k ∈ keys f s ∧ ¬delete = some k ∨ (none : Option Name) = some k := by
  cases s with
  | none => simp [opened, hnone]
  | some p => exact h p rfl k

/-- A command that creates the base if there is none. -/
theorem mem_keys_created (hf : f.KeysApart) {cmd : π → π × Except SecError Unit} {s : Option π}
    {make : Option Name} (h : KeyEffect f (base f s) make none (cmd (base f s)).1) (k : Name) :
    k ∈ keys f (created f cmd s).1 ↔
      k ∈ keys f s ∧ ¬(none : Option Name) = some k ∨ make = some k := by
  rw [← mem_keys_base hf (s := s)]
  exact h k

/-- One invocation makes and deletes what it says. -/
theorem mem_keys_step (hf : f.KeysApart) (k : Name) (s : Option π) (cmd : Command) :
    k ∈ keys f ((sec lib f).step s cmd).1 ↔
      k ∈ keys f s ∧ ¬Deletes f k (s, cmd) ∨ Makes lib f k (s, cmd) := by
  cases cmd with
  | keygen name keyType anchor days skip keyId now =>
    exact mem_keys_created hf (keyEffect_cmdKeygen hf _ keyType anchor days skip keyId now) k
  | importBag wire password anchor =>
    have heffect : k ∈ keys f (created f (cmdImport f wire password anchor) s).1 ↔
        k ∈ keys f s ∧ ¬(none : Option Name) = some k ∨
          made lib f s (.importBag wire password anchor) = some k :=
      mem_keys_created hf (@keyEffect_cmdImport π lib f hf _ wire password anchor) k
    by_cases hname : (f.safebagCertName wire).isSome = true
    · have hstep : ((sec lib f).step s (.importBag wire password anchor)).1 =
          (created f (cmdImport f wire password anchor) s).1 := by
        simp only [sec, runCommand, if_pos hname]
      rw [hstep]
      exact heffect
    · have hstep : ((sec lib f).step s (.importBag wire password anchor)).1 = s := by
        simp only [sec, runCommand, if_neg hname]
      rw [hstep]
      simp only [Option.isSome_iff_ne_none, ne_eq, not_not] at hname
      simp [Deletes, deleted, Makes, made, hname]
  | delete name =>
    refine mem_keys_opened (fun hs => ?_) (fun p hp => ?_) k
    · rw [hs]
      rfl
    · subst hp
      exact keyEffect_cmdDelete hf p
  | anchorAdd name =>
    exact mem_keys_opened (fun _ => rfl) (fun p _ => keyEffect_cmdAnchorAdd hf p) k
  | anchorRemove name =>
    exact mem_keys_opened (fun _ => rfl) (fun p _ => keyEffect_cmdAnchorRemove hf p) k

/-- The keys of a base are those made and not deleted since. -/
theorem mem_keys_run (hf : f.KeysApart) (cmds : List Command) (k : Name) :
    k ∈ keys f ((sec lib f).run none cmds) ↔ Possessed lib f cmds k := by
  apply Machine.run_iff_setLast_of_not (P := fun s => k ∈ keys f s)
  · exact mem_keys_step hf k
  · exact List.not_mem_nil

/-- A base in memory keeps its keys apart. -/
theorem memoryPib_keysApart : memoryPib.KeysApart where
  create := rfl
  generate keyType n p p' pk h k := by
    obtain ⟨rfl, -⟩ := Prod.mk.inj (Option.some.inj h)
    by_cases hkn : k = n
    · simp [memoryPib, hkn]
    · simp [memoryPib, hkn]
  storeCert n c p p' h k := by
    obtain rfl := Option.some.inj h
    rfl
  storeSafebag n wire password p p' c h k := by
    obtain ⟨rfl, -⟩ := Prod.mk.inj (Option.some.inj h)
    by_cases hkn : k = n
    · simp [memoryPib, hkn]
    · simp [memoryPib, hkn]
  deleteKey n p p' h k := by
    obtain rfl := Option.some.inj h
    simp [memoryPib]
  addTrustAnchor n c p p' h k := by
    obtain rfl := Option.some.inj h
    rfl
  removeTrustAnchor n p p' h k := by
    simp only [memoryPib, Option.ite_none_right_eq_some, Option.some.injEq] at h
    obtain ⟨-, rfl⟩ := h
    rfl

end History

end NdnFwd.Sec
