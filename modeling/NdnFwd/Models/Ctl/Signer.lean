import NdnFwd.Models.Keys.Possession

/-!
# Who signs the commands of ndnctl

With `--identity`, `ndnctl` signs its commands with a key of the base: the one of that very name, or
else the first that the listing has under the identity. It knows nothing about certificates.
-/

namespace NdnFwd.CtlSigner

open Sec

/-- Why there is no signer. -/
inductive SignerError
  /-- `Cannot open PIB`. -/
  | noPib
  /-- `bad identity name`. -/
  | badIdentity
  /-- `could not enumerate keys in PIB`. -/
  | noListing
  /-- `no key for identity in PIB`. -/
  | noKey (identity : Name)
  /-- `Key not found in PIB`. -/
  | notFound (name : Name)
  deriving DecidableEq, Repr

section Signer

variable {π κ : Type*} (f : FilePib π) (getSigner : Name → π → Option κ)
  (parse : String → Option Name) (lists : Bool)

/-- The signer of an identity, with the name of its key. The last resort is `list_keys`, which may
fail. -/
def signerOf (identity : Name) (p : π) : Except SignerError (Name × κ) :=
  match getSigner identity p with
  | some key => .ok (identity, key)
  | none =>
    if lists then
      match findCertName f p identity with
      | none => .error (.noKey identity)
      | some name =>
        match getSigner name p with
        | some key => .ok (name, key)
        | none => .error (.notFound name)
    else .error .noListing

/-- `run_nfd`, up to the first command: without `--identity` it is not signed. -/
def commandSigner (s : Option π) (identity : Option String) :
    Except SignerError (Option (Name × κ)) :=
  match identity with
  | none => .ok none
  | some uri =>
    match s with
    | none => .error .noPib
    | some p =>
      match parse uri with
      | none => .error .badIdentity
      | some identity => (signerOf f getSigner lists identity p).map some

/-- The name of a key of this identity. -/
def KeyOf (identity name : Name) : Prop := name = identity ∨ keyPrefix identity <+: name

/-- `get_signer` loads the keys that are listed. -/
def LoadsListed : Prop := ∀ name p, (getSigner name p).isSome = true ↔ name ∈ f.listKeys p

end Signer

section Possession

variable {π κ : Type*} {f : FilePib π} {getSigner : Name → π → Option κ}
  {lists : Bool} {identity name : Name} {p : π} {key : κ}

private theorem findCertName_spec (h : findCertName f p identity = some name) :
    name ∈ f.listKeys p ∧ keyPrefix identity <+: name := by
  refine ⟨List.mem_of_find?_eq_some h, ?_⟩
  exact List.isPrefixOf_iff_prefix.mp (List.find?_some h)

private theorem LoadsListed.exists_key (h : LoadsListed f getSigner) (hname : name ∈ f.listKeys p) :
    ∃ key, getSigner name p = some key :=
  Option.isSome_iff_exists.mp ((h name p).mpr hname)

/-- A key that loads is listed. -/
theorem LoadsListed.mem (h : LoadsListed f getSigner) (hkey : getSigner name p = some key) :
    name ∈ f.listKeys p :=
  (h name p).mp (by rw [hkey]; rfl)

/-- A key of that very name signs. -/
theorem signerOf_of_mem (hloads : LoadsListed f getSigner) (h : identity ∈ f.listKeys p) :
    signerOf f getSigner lists identity p = .ok (name, key) ↔
      name = identity ∧ getSigner name p = some key := by
  obtain ⟨key', hkey'⟩ := hloads.exists_key h
  rw [signerOf, hkey']
  constructor
  · intro hok
    obtain ⟨rfl, rfl⟩ := Prod.mk.inj (Except.ok.inj hok)
    exact ⟨rfl, hkey'⟩
  · rintro ⟨rfl, hkey⟩
    obtain rfl := Option.some.inj (hkey'.symm.trans hkey)
    rfl

/-- Otherwise the key signs that the identity resolves to, as long as the keys can be listed. -/
theorem signerOf_of_notMem (hloads : LoadsListed f getSigner) (h : identity ∉ f.listKeys p) :
    signerOf f getSigner lists identity p = .ok (name, key) ↔
      lists = true ∧ findCertName f p identity = some name ∧ getSigner name p = some key := by
  have hexact : getSigner identity p = none := by
    rw [Option.eq_none_iff_forall_ne_some]
    intro key hkey
    exact h (hloads.mem hkey)
  rw [signerOf, hexact]
  dsimp only
  cases lists with
  | false => simp
  | true =>
    rw [if_pos rfl]
    cases hfind : findCertName f p identity with
    | none => simp
    | some name' =>
      obtain ⟨key', hkey'⟩ := hloads.exists_key (findCertName_spec hfind).1
      dsimp only
      rw [hkey']
      constructor
      · intro hok
        obtain ⟨rfl, rfl⟩ := Prod.mk.inj (Except.ok.inj hok)
        exact ⟨rfl, rfl, hkey'⟩
      · rintro ⟨-, hname, hkey⟩
        obtain rfl := Option.some.inj hname
        obtain rfl := Option.some.inj (hkey'.symm.trans hkey)
        rfl

/-- There is a signer exactly if the listing has a key of the identity, and the program sees it
unless it has that very name. -/
theorem exists_signerOf_iff (hloads : LoadsListed f getSigner) :
    (∃ signer, signerOf f getSigner lists identity p = .ok signer) ↔
      ∃ name ∈ f.listKeys p, KeyOf identity name ∧ (name = identity ∨ lists = true) := by
  by_cases h : identity ∈ f.listKeys p
  · obtain ⟨key, hkey⟩ := hloads.exists_key h
    refine iff_of_true ⟨(identity, key), ?_⟩ ⟨identity, h, Or.inl rfl, Or.inl rfl⟩
    exact (signerOf_of_mem hloads h).mpr ⟨rfl, hkey⟩
  · constructor
    · rintro ⟨⟨name, key⟩, hok⟩
      obtain ⟨hlists, hfind, -⟩ := (signerOf_of_notMem hloads h).mp hok
      obtain ⟨hmem, hunder⟩ := findCertName_spec hfind
      exact ⟨name, hmem, Or.inr hunder, Or.inr hlists⟩
    · rintro ⟨name, hmem, rfl | hunder, hseen⟩
      · exact absurd hmem h
      · have hlists : lists = true := hseen.resolve_left fun hname => h (hname ▸ hmem)
        obtain ⟨first, hfind⟩ := Option.isSome_iff_exists.mp
          (findCertName_isSome_iff.mpr ⟨name, hmem, hunder⟩)
        obtain ⟨key, hkey⟩ := hloads.exists_key (findCertName_spec hfind).1
        exact ⟨(first, key), (signerOf_of_notMem hloads h).mpr ⟨hlists, hfind, hkey⟩⟩

end Possession

section History

variable {π κ : Type*} {lib : PacketLib} {f : FilePib π} {getSigner : Name → π → Option κ}
  {parse : String → Option Name} {lists : Bool} {identity : Name} {uri : String}

private theorem commandSigner_some (hparse : parse uri = some identity) (s : Option π)
    (signer : Option (Name × κ)) :
    commandSigner f getSigner parse lists s (some uri) = .ok signer ↔
      ∃ p nk, s = some p ∧ signerOf f getSigner lists identity p = .ok nk ∧ signer = some nk := by
  cases s with
  | none => simp [commandSigner]
  | some p =>
    simp only [commandSigner, hparse]
    cases hok : signerOf f getSigner lists identity p with
    | error e => simp [Except.map, hok]
    | ok nk =>
      obtain ⟨name, key⟩ := nk
      simp [Except.map, hok, eq_comm]

private theorem mem_keys_some {s : Option π} {name : Name} :
    name ∈ keys f s ↔ ∃ p, s = some p ∧ name ∈ f.listKeys p := by
  cases s with
  | none => simp [keys]
  | some p => simp [keys]

/-- Whatever has been done with the key tool, the keys of the base are those that have been made and
not been deleted since. `ndnctl` signs for an identity exactly if one of these is a key of it, by
that very name or in a listing that succeeds, and then with such a key: the one of that very name,
or else the one that the key tool, too, takes the identity for. -/
theorem signs_iff_possessed (hf : f.KeysApart) (hloads : LoadsListed f getSigner)
    (hparse : parse uri = some identity) (lists : Bool) (cmds : List Command) :
    (∀ name, name ∈ keys f ((sec lib f).run none cmds) ↔ Possessed lib f cmds name) ∧
      ((∃ signer, commandSigner f getSigner parse lists ((sec lib f).run none cmds) (some uri) =
          .ok signer) ↔
        ∃ name, KeyOf identity name ∧ Possessed lib f cmds name ∧
          (name = identity ∨ lists = true)) ∧
      ∀ name key, commandSigner f getSigner parse lists ((sec lib f).run none cmds) (some uri) =
          .ok (some (name, key)) →
        KeyOf identity name ∧ Possessed lib f cmds name ∧
          (Possessed lib f cmds identity → name = identity) ∧
          (¬Possessed lib f cmds identity →
            resolved f ((sec lib f).run none cmds) identity = some name) := by
  refine ⟨mem_keys_run hf cmds, ?_⟩
  simp only [← mem_keys_run hf, commandSigner_some hparse]
  generalize (sec lib f).run none cmds = s
  constructor
  · constructor
    · rintro ⟨_, p, nk, rfl, hok, rfl⟩
      obtain ⟨name, hmem, hname, hseen⟩ := (exists_signerOf_iff hloads).mp ⟨nk, hok⟩
      exact ⟨name, hname, hmem, hseen⟩
    · rintro ⟨name, hname, hmem, hseen⟩
      obtain ⟨p, rfl, hmem⟩ := mem_keys_some.mp hmem
      obtain ⟨nk, hok⟩ := (exists_signerOf_iff hloads).mpr ⟨name, hmem, hname, hseen⟩
      exact ⟨some nk, p, nk, rfl, hok, rfl⟩
  · rintro name key ⟨p, nk, rfl, hok, hnk⟩
    obtain rfl := Option.some.inj hnk
    by_cases h : identity ∈ f.listKeys p
    · obtain ⟨rfl, -⟩ := (signerOf_of_mem hloads h).mp hok
      exact ⟨Or.inl rfl, h, fun _ => rfl, fun hnot => absurd h hnot⟩
    · obtain ⟨-, hfind, -⟩ := (signerOf_of_notMem hloads h).mp hok
      obtain ⟨hmem, hunder⟩ := findCertName_spec hfind
      exact ⟨Or.inr hunder, hmem, fun hmem => absurd hmem h, fun _ => hfind⟩

/-- A base in memory whose certificates cannot be stored. -/
def certlessPib : FilePib MemoryPib := { memoryPib with storeCert := fun _ _ _ => none }

private theorem certlessPib_keysApart : certlessPib.KeysApart :=
  { memoryPib_keysApart with storeCert := fun _ _ _ _ h => by cases h }

/-- The key of a name, as its name. -/
def memorySigner (name : Name) (p : MemoryPib) : Option Name :=
  if p.keys.contains name then some name else none

private theorem memorySigner_loadsListed : LoadsListed certlessPib memorySigner := by
  intro name p
  unfold memorySigner
  have hcontains : p.keys.contains name = true ↔ name ∈ certlessPib.listKeys p :=
    List.contains_iff_mem
  rw [← hcontains]
  split <;> simp_all

/-- A key whose `keygen` failed signs, without a certificate. -/
theorem router_signs_certless :
    commandSigner certlessPib memorySigner (fun _ => some router) true
        ((sec .conventions certlessPib).run none [.keygen router .ed25519 false 365 false 1 0])
        (some "/router") =
      .ok (some (buildCertName .conventions 1 router, buildCertName .conventions 1 router)) ∧
    Possessed .conventions certlessPib [.keygen router .ed25519 false 365 false 1 0]
      (buildCertName .conventions 1 router) := by
  have hsigner : commandSigner certlessPib memorySigner (fun _ => some router) true
      ((sec .conventions certlessPib).run none [.keygen router .ed25519 false 365 false 1 0])
      (some "/router") =
        .ok (some (buildCertName .conventions 1 router, buildCertName .conventions 1 router)) := rfl
  refine ⟨hsigner, ?_⟩
  exact ((signs_iff_possessed certlessPib_keysApart memorySigner_loadsListed rfl true _).2.2 _ _
    hsigner).2.1

end History

end NdnFwd.CtlSigner
