import NdnFwd.Core.Latest
import NdnFwd.Models.Keys.Keygen

/-!
# Where trust anchors come from

A command makes at most one certificate a trust anchor and takes at most one away, and only if it
succeeds. Over a whole history of the key tool, with commands that fail half-way and keys that are
deleted, the anchors are those names whose last successful anchoring came after their last
successful removal.
-/

namespace NdnFwd.Sec

/-- What is documented of the anchor store next to the others: a new base has no anchors, keys and
certificates come and go without them, and adding an anchor adds that one. -/
structure FilePib.AnchorsApart {π : Type*} (f : FilePib π) : Prop where
  create : f.listAnchors f.create = []
  generate : ∀ keyType n p p' pk, f.generate keyType n p = some (p', pk) →
    f.listAnchors p' = f.listAnchors p
  storeCert : ∀ n c p p', f.storeCert n c p = some p' → f.listAnchors p' = f.listAnchors p
  storeSafebag : ∀ n wire password p p' c, f.storeSafebag n wire password p = some (p', c) →
    f.listAnchors p' = f.listAnchors p
  deleteKey : ∀ n p p', f.deleteKey n p = some p' → f.listAnchors p' = f.listAnchors p
  adds : ∀ n c p p', f.addTrustAnchor n c p = some p' →
    ∀ a, a ∈ f.listAnchors p' ↔ a ∈ f.listAnchors p ∨ a = n

section Marks

variable {π : Type*} (lib : PacketLib) (f : FilePib π)

/-- The certificate that a command makes an anchor if it succeeds. -/
def marked (s : Option π) : Command → Option Name
  | .keygen name _ anchor _ skip keyId _ =>
    if anchor = true ∧ ¬(skip = true ∧ (findCertName f (base f s) name).isSome = true) then
      some (buildCertName lib keyId name)
    else none
  | .importBag wire _ anchor => if anchor = true then f.safebagCertName wire else none
  | .anchorAdd name => resolved f s name
  | .delete _ | .anchorRemove _ => none

/-- The one that it takes away if it succeeds. -/
def unmarked (s : Option π) : Command → Option Name
  | .anchorRemove name => resolved f s name
  | _ => none

/-- A command makes a certificate an anchor. -/
def Marks (a : Name) (v : Option π × Command) : Prop :=
  marked lib f v.1 v.2 = some a ∧ (runCommand lib f v.1 v.2).2 = .ok ()

/-- It takes one away. -/
def Unmarks (a : Name) (v : Option π × Command) : Prop :=
  unmarked f v.1 v.2 = some a ∧ (runCommand lib f v.1 v.2).2 = .ok ()

/-- What a command on a base does to its anchors. -/
def Effect (p : π) (mark unmark : Option Name) (r : π × Except SecError Unit) : Prop :=
  ∀ a, a ∈ f.listAnchors r.1 ↔
    a ∈ f.listAnchors p ∧ ¬(unmark = some a ∧ r.2 = .ok ()) ∨ mark = some a ∧ r.2 = .ok ()

end Marks

section Commands

variable {π : Type*} {lib : PacketLib} {f : FilePib π} {p p' : π} {mark unmark : Option Name}
  {name : Name}

private theorem effect_quiet {e : Except SecError Unit} (h : f.listAnchors p' = f.listAnchors p) :
    Effect f p none none (p', e) := by
  intro a
  simp [h]

private theorem effect_error {e : SecError} (h : f.listAnchors p' = f.listAnchors p) :
    Effect f p mark unmark (p', .error e) := by
  intro a
  simp [h]

private theorem effect_addAnchor (hf : f.AnchorsApart) (h : f.listAnchors p' = f.listAnchors p)
    (certName : Name) (cert : Certificate) :
    Effect f p (some certName) none (addAnchor f certName cert p') := by
  rw [addAnchor]
  cases hadd : f.addTrustAnchor certName cert p' with
  | none => exact effect_error h
  | some p'' =>
    intro a
    rw [hf.adds _ _ _ _ hadd, h]
    simp [eq_comm]

private theorem effect_cmdKeygen (hf : f.AnchorsApart) (p : π) (keyType : KeyType) (anchor : Bool)
    (days : Nat) (skip : Bool) (keyId now : UInt64) :
    Effect f p (marked lib f (some p) (.keygen name keyType anchor days skip keyId now)) none
      (cmdKeygen lib f name keyType anchor days skip keyId now p) := by
  rw [cmdKeygen, marked, base, Option.getD_some]
  by_cases hskip : skip = true ∧ (findCertName f p name).isSome = true
  · rw [if_pos hskip, if_neg fun h => h.2 hskip]
    exact effect_quiet rfl
  · rw [if_neg hskip]
    dsimp only
    cases hkey : f.generate keyType (buildCertName lib keyId name) p with
    | none => exact effect_error rfl
    | some r =>
      obtain ⟨p₁, pk⟩ := r
      have hkept := hf.generate _ _ _ _ _ hkey
      dsimp only
      generalize hcert : f.storeCert (buildCertName lib keyId name) _ p₁ = r
      cases r with
      | none => exact effect_error hkept
      | some p₂ =>
        have hkept' := (hf.storeCert _ _ _ _ hcert).trans hkept
        dsimp only
        cases anchor with
        | false =>
          rw [if_neg Bool.false_ne_true, if_neg fun h => Bool.false_ne_true h.1]
          exact effect_quiet hkept'
        | true =>
          rw [if_pos rfl, if_pos ⟨rfl, hskip⟩]
          exact effect_addAnchor hf hkept' _ _

private theorem effect_cmdImport (hf : f.AnchorsApart) (p : π) (wire password : Bytes)
    (anchor : Bool) :
    Effect f p (marked lib f (some p) (.importBag wire password anchor)) none
      (cmdImport f wire password anchor p) := by
  rw [cmdImport, marked]
  cases hname : f.safebagCertName wire with
  | none => exact effect_error rfl
  | some certName =>
    dsimp only
    cases hstore : f.storeSafebag certName wire password p with
    | none => exact effect_error rfl
    | some r =>
      obtain ⟨p₁, stored⟩ := r
      have hkept := hf.storeSafebag _ _ _ _ _ _ hstore
      cases anchor with
      | false => exact effect_quiet hkept
      | true => exact effect_addAnchor hf hkept _ _

private theorem effect_cmdDelete (hf : f.AnchorsApart) (p : π) :
    Effect f p none none (cmdDelete f name p) := by
  rw [cmdDelete]
  cases findCertName f p name with
  | none => exact effect_quiet rfl
  | some certName =>
    dsimp only
    cases hdelete : f.deleteKey certName p with
    | none => exact effect_quiet rfl
    | some p' => exact effect_quiet (hf.deleteKey _ _ _ hdelete)

private theorem effect_cmdAnchorAdd (hf : f.AnchorsApart) (p : π) :
    Effect f p (findCertName f p name) none (cmdAnchorAdd f name p) := by
  rw [cmdAnchorAdd]
  cases findCertName f p name with
  | none => exact effect_error rfl
  | some certName =>
    dsimp only
    cases f.getCert certName p with
    | none => exact effect_error rfl
    | some cert => exact effect_addAnchor hf rfl _ _

private theorem effect_cmdAnchorRemove (hf : f.AnchorLaws) (p : π) :
    Effect f p none (findCertName f p name) (cmdAnchorRemove f name p) := by
  rw [cmdAnchorRemove]
  cases findCertName f p name with
  | none => exact effect_error rfl
  | some certName =>
    dsimp only
    cases hremove : f.removeTrustAnchor certName p with
    | none => exact effect_error rfl
    | some p' =>
      intro a
      rw [hf.removes _ _ _ hremove]
      simp [eq_comm]

/-- Where there is no base, the anchors are those of a new one. -/
theorem mem_anchors_base (hf : f.AnchorsApart) {s : Option π} {a : Name} :
    a ∈ f.listAnchors (base f s) ↔ a ∈ anchors f s := by
  cases s with
  | none =>
    rw [base, Option.getD_none, hf.create]
    rfl
  | some p => rfl

end Commands

section History

variable {π : Type*} {lib : PacketLib} {f : FilePib π}

/-- A command that opens the base does nothing without one. -/
theorem mem_anchors_opened {cmd : π → π × Except SecError Unit} {s : Option π}
    {mark unmark : Option Name} (h : ∀ p, s = some p → Effect f p mark unmark (cmd p)) (a : Name) :
    a ∈ anchors f (opened cmd s).1 ↔
      a ∈ anchors f s ∧ ¬(unmark = some a ∧ (opened cmd s).2 = .ok ()) ∨
        mark = some a ∧ (opened cmd s).2 = .ok () := by
  cases s with
  | none => simp [opened]
  | some p => exact h p rfl a

/-- A command that creates the base if there is none. -/
theorem mem_anchors_created (hf : f.AnchorsApart) {cmd : π → π × Except SecError Unit}
    {s : Option π} {mark : Option Name} (h : Effect f (base f s) mark none (cmd (base f s)))
    (a : Name) : a ∈ anchors f (created f cmd s).1 ↔
      a ∈ anchors f s ∧ ¬((none : Option Name) = some a ∧ (created f cmd s).2 = .ok ()) ∨
        mark = some a ∧ (created f cmd s).2 = .ok () := by
  rw [← mem_anchors_base hf (s := s)]
  exact h a

/-- One invocation brings about and puts an end to what it says. -/
theorem mem_anchors_step (hf : f.AnchorLaws) (hapart : f.AnchorsApart) (a : Name) (s : Option π)
    (cmd : Command) :
    a ∈ anchors f ((sec lib f).step s cmd).1 ↔
      a ∈ anchors f s ∧ ¬Unmarks lib f a (s, cmd) ∨ Marks lib f a (s, cmd) := by
  cases cmd with
  | keygen name keyType anchor days skip keyId now =>
    exact mem_anchors_created hapart
      (effect_cmdKeygen hapart _ keyType anchor days skip keyId now) a
  | importBag wire password anchor =>
    have heffect : a ∈ anchors f (created f (cmdImport f wire password anchor) s).1 ↔
        a ∈ anchors f s ∧ ¬((none : Option Name) = some a ∧
            (created f (cmdImport f wire password anchor) s).2 = .ok ()) ∨
          marked lib f s (.importBag wire password anchor) = some a ∧
            (created f (cmdImport f wire password anchor) s).2 = .ok () :=
      mem_anchors_created hapart (@effect_cmdImport π lib f hapart _ wire password anchor) a
    simp only [Unmarks, Marks, sec, runCommand]
    split_ifs with hname
    · exact heffect
    · simp
  | delete name => exact mem_anchors_opened (fun p _ => effect_cmdDelete hapart p) a
  | anchorAdd name =>
    refine mem_anchors_opened (fun p hp => ?_) a
    subst hp
    exact effect_cmdAnchorAdd hapart p
  | anchorRemove name =>
    refine mem_anchors_opened (fun p hp => ?_) a
    subst hp
    exact effect_cmdAnchorRemove hf p

/-- Whatever has been done with the key tool, the trust anchors are the names whose last successful
anchoring no successful removal has followed. -/
theorem mem_anchors_iff (hf : f.AnchorLaws) (hapart : f.AnchorsApart) (cmds : List Command)
    (a : Name) : a ∈ anchors f ((sec lib f).run none cmds) ↔
      (sec lib f).SetLast (Marks lib f a) (Unmarks lib f a) none cmds := by
  apply Machine.run_iff_setLast_of_not (P := fun s => a ∈ anchors f s)
  · exact mem_anchors_step hf hapart a
  · exact List.not_mem_nil

/-- A base in memory keeps its anchors apart. -/
theorem memoryPib_anchorsApart : memoryPib.AnchorsApart where
  create := rfl
  generate keyType n p p' pk h := by
    obtain ⟨rfl, -⟩ := Prod.mk.inj (Option.some.inj h)
    rfl
  storeCert n c p p' h := by
    obtain rfl := Option.some.inj h
    rfl
  storeSafebag n wire password p p' c h := by
    obtain ⟨rfl, -⟩ := Prod.mk.inj (Option.some.inj h)
    rfl
  deleteKey n p p' h := by
    obtain rfl := Option.some.inj h
    rfl
  adds n c p p' h a := by
    obtain rfl := Option.some.inj h
    by_cases han : a = n
    · simp [memoryPib, han]
    · simp [memoryPib, han]

/-- A router that was made an anchor and then deleted. -/
def deletedRouter : List Command := [.keygen router .ecdsa true 365 false 1 0, .delete router]

/-- Its certificate is still trusted. -/
theorem deletedRouter_trusted :
    buildCertName .conventions 1 router ∈
        anchors memoryPib ((sec .conventions memoryPib).run none deletedRouter) ∧
      (sec .conventions memoryPib).SetLast
        (Marks .conventions memoryPib (buildCertName .conventions 1 router))
        (Unmarks .conventions memoryPib (buildCertName .conventions 1 router)) none
        deletedRouter := by
  have htrusted : buildCertName .conventions 1 router ∈
      anchors memoryPib ((sec .conventions memoryPib).run none deletedRouter) :=
    List.mem_singleton_self _
  exact ⟨htrusted,
    (mem_anchors_iff memoryPib_anchorLaws memoryPib_anchorsApart deletedRouter _).mp htrusted⟩

end History

end NdnFwd.Sec
