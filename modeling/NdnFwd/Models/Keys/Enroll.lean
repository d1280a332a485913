import NdnFwd.Core.Digits
import NdnFwd.Core.Paths
import NdnFwd.Core.Utf8
import NdnFwd.Models.Packet.Name

/-!
# The issuer of an enrolled certificate

`enroll-ndncert` fetches the certificate it was issued and checks that its issuer is under the CA.
The check compares the two names as URIs, character by character, so that the last component of
the CA prefix may be continued by the one in its place.
-/

namespace NdnFwd.Enroll

/-- The slash before each component of a URI. -/
def slash : UInt8 := 0x2F

section Uri

variable (component : NameComponent → Bytes)

/-- A name as a URI, over the text of one component. -/
def uri : Name → Bytes
  | [] => [slash]
  | c :: cs => Paths.spell slash ((c :: cs).map component)

/-- The text of a component is not empty, has no slash, and determines the component. -/
structure UriLaws : Prop where
  nonempty : ∀ c, component c ≠ []
  noSlash : ∀ c, slash ∉ component c
  injective : Function.Injective component

end Uri

/-- What comes of fetching the issued certificate. -/
inductive CertFetch
  | unavailable (error : String)
  | undecodable
  | decoded (issuer : Option Name)
  deriving DecidableEq, Repr

/-- What `finish` prints before `ENROLL_OK`. -/
structure Enrolled where
  certName : Name
  issuer : Bytes
  fetched : Bool
  deriving DecidableEq, Repr

/-- Why it fails. -/
inductive FinishError
  /-- `no issued cert name after enrollment`. -/
  | noIssuedCertName
  /-- `issued cert does not decode as NDN Certificate v2`. -/
  | undecodable
  /-- `cert issuer {issuer} does not chain to CA prefix {prefix}`. -/
  | doesNotChain (issuer caPrefix : Bytes)
  deriving DecidableEq, Repr

section Finish

variable (component : NameComponent → Bytes) (issued : Option Name) (caPrefix : Name)
  (fetch : Name → CertFetch)

/-- `finish`. -/
def finish : Except FinishError Enrolled :=
  match issued with
  | none => .error .noIssuedCertName
  | some certName =>
    match fetch certName with
    | .decoded issuer =>
      let issuerStr := (issuer.map (uri component)).getD []
      if (uri component caPrefix).isPrefixOf issuerStr then .ok ⟨certName, issuerStr, true⟩
      else .error (.doesNotChain issuerStr (uri component caPrefix))
    | .undecodable => .error .undecodable
    | .unavailable _ => .ok ⟨certName, uri component caPrefix, false⟩

/-- The certificate that is fetched has this issuer. -/
def Issuer (issuer : Name) : Prop :=
  ∃ certName, issued = some certName ∧ fetch certName = .decoded (some issuer)

/-- A fetched certificate is accepted only from an issuer under the CA. -/
def AcceptsUnderCa : Prop :=
  ∀ r, finish component issued caPrefix fetch = .ok r → r.fetched = true →
    ∃ issuer, Issuer issued fetch issuer ∧ caPrefix <+: issuer

/-- The name agrees with the CA prefix but for its last component, which it has replaced by
another one that continues its text. -/
def Impersonates (issuer : Name) : Prop :=
  ∃ init c c' rest, caPrefix = init ++ [c] ∧ issuer = init ++ c' :: rest ∧ c ≠ c' ∧
    component c <+: component c'

end Finish

variable {component : NameComponent → Bytes} {issued : Option Name} {caPrefix issuer : Name}
  {fetch : Name → CertFetch}

/-- Two components of one place, one continuing the other, are the same or an impersonation. -/
theorem prefix_or_impersonates (h : UriLaws component) {c c' : NameComponent}
    {init init' rest : Name} (hinit : init.map component = init'.map component)
    (hc : component c <+: component c') :
    init ++ [c] <+: init' ++ c' :: rest ∨
      Impersonates component (init ++ [c]) (init' ++ c' :: rest) := by
  obtain rfl := List.map_injective_iff.mpr h.injective hinit
  by_cases hcc : c = c'
  · rw [hcc]
    exact Or.inl ((List.prefix_append_right_inj init).mpr (List.prefix_append [c'] rest))
  · exact Or.inr ⟨init, c, c', rest, rfl, rfl, hcc, hc⟩

private theorem noSlash_map (h : UriLaws component) (n : Name) :
    ∀ x ∈ n.map component, slash ∉ x := by
  intro x hx
  obtain ⟨c, -, rfl⟩ := List.mem_map.mp hx
  exact h.noSlash c

/-- When the components of one name are spelled as the beginning of those of another. -/
theorem spell_prefix_iff (h : UriLaws component) (hne : caPrefix ≠ []) :
    Paths.spell slash (caPrefix.map component) <+: Paths.spell slash (issuer.map component) ↔
      caPrefix <+: issuer ∨ Impersonates component caPrefix issuer := by
  have hne' : caPrefix.map component ≠ [] := fun hnil => hne (List.map_eq_nil_iff.mp hnil)
  have hspell := Paths.spell_prefix_iff (noSlash_map h caPrefix) (noSlash_map h issuer) hne'
  constructor
  · intro hpre
    obtain ⟨init, x, y, rest, hca, hissuer, hxy⟩ := hspell.mp hpre
    obtain ⟨init₁, last, rfl, hinit₁, hlast⟩ := List.map_eq_append_iff.mp hca
    obtain ⟨c, rfl, rfl⟩ := List.map_eq_singleton_iff.mp hlast
    obtain ⟨init₂, tail, rfl, hinit₂, htail⟩ := List.map_eq_append_iff.mp hissuer
    obtain ⟨c', rest', rfl, rfl, -⟩ := List.map_eq_cons_iff.mp htail
    exact prefix_or_impersonates h (hinit₁.trans hinit₂.symm) hxy
  · rintro (⟨rest, rfl⟩ | ⟨init, c, c', rest, rfl, rfl, -, hpre⟩)
    · rw [List.map_append, Paths.spell_append]
      exact List.prefix_append _ _
    · apply hspell.mpr
      exact ⟨init.map component, component c, component c', rest.map component, by simp, by simp,
        hpre⟩

/-- Whom the comparison of URIs accepts. -/
theorem uri_prefix_iff (h : UriLaws component) :
    uri component caPrefix <+: uri component issuer ↔
      caPrefix <+: issuer ∨ Impersonates component caPrefix issuer := by
  cases caPrefix with
  | nil =>
    refine iff_of_true ?_ (Or.inl List.nil_prefix)
    cases issuer with
    | nil => exact List.prefix_rfl
    | cons d ds => exact List.prefix_append [slash] _
  | cons c cs =>
    cases issuer with
    | nil =>
      have hlong : ¬uri component (c :: cs) <+: [slash] := by
        intro hpre
        have hnil := List.prefix_nil.mp ((List.prefix_cons_inj slash).mp hpre)
        exact h.nonempty c (List.append_eq_nil_iff.mp hnil).1
      refine iff_of_false hlong ?_
      rintro (hpre | ⟨init, _, _, _, -, hissuer, -⟩)
      · exact List.cons_ne_nil c cs (List.prefix_nil.mp hpre)
      · exact List.cons_ne_nil _ _ (List.append_eq_nil_iff.mp hissuer.symm).2
    | cons d ds => exact spell_prefix_iff h (List.cons_ne_nil c cs)

private theorem uri_ne_nil (n : Name) : uri component n ≠ [] := by
  cases n <;> exact List.cons_ne_nil _ _

/-- When `finish` succeeds with a certificate that was fetched. -/
theorem finish_fetched_iff :
    (∃ r, finish component issued caPrefix fetch = .ok r ∧ r.fetched = true) ↔
      ∃ issuer, Issuer issued fetch issuer ∧ uri component caPrefix <+: uri component issuer := by
  cases issued with
  | none => simp [finish, Issuer]
  | some certName =>
    simp only [finish, Issuer, Option.some.injEq, exists_eq_left']
    cases fetch certName with
    | unavailable e => simp
    | undecodable => simp
    | decoded issuer =>
      cases issuer with
      | none =>
        have hnot : ¬(uri component caPrefix).isPrefixOf [] = true := fun h =>
          uri_ne_nil caPrefix (List.prefix_nil.mp (List.isPrefixOf_iff_prefix.mp h))
        simp [hnot]
      | some issuer =>
        simp only [Option.map_some, Option.getD_some, List.isPrefixOf_iff_prefix]
        split_ifs with hpre <;> simp [hpre]

/-- A certificate has one issuer. -/
theorem Issuer.unique {issuer' : Name} (h : Issuer issued fetch issuer)
    (h' : Issuer issued fetch issuer') : issuer = issuer' := by
  obtain ⟨certName, hissued, hfetch⟩ := h
  obtain ⟨certName', hissued', hfetch'⟩ := h'
  obtain rfl := Option.some.inj (hissued.symm.trans hissued')
  rw [hfetch] at hfetch'
  cases hfetch'
  rfl

/-- An impersonating name is not under the CA. -/
theorem Impersonates.not_prefix (h : Impersonates component caPrefix issuer) :
    ¬caPrefix <+: issuer := by
  obtain ⟨init, c, c', rest, rfl, rfl, hne, -⟩ := h
  intro hpre
  rw [List.prefix_append_right_inj] at hpre
  exact hne (List.cons_prefix_cons.mp hpre).1

/-- A fetched certificate is accepted only from an issuer under the CA, exactly if its issuer does
not impersonate the CA. -/
theorem acceptsUnderCa_iff (component : NameComponent → Bytes) (h : UriLaws component)
    (issued : Option Name) (caPrefix : Name) (fetch : Name → CertFetch) :
    AcceptsUnderCa component issued caPrefix fetch ↔
      ∀ issuer, Issuer issued fetch issuer → ¬Impersonates component caPrefix issuer := by
  constructor
  · intro haccepts issuer hissuer himpersonates
    obtain ⟨r, hr, hfetched⟩ := finish_fetched_iff.mpr
      ⟨issuer, hissuer, (uri_prefix_iff h).mpr (Or.inr himpersonates)⟩
    obtain ⟨issuer', hissuer', hpre⟩ := haccepts r hr hfetched
    obtain rfl := hissuer.unique hissuer'
    exact himpersonates.not_prefix hpre
  · intro hnone r hr hfetched
    obtain ⟨issuer, hissuer, hpre⟩ := finish_fetched_iff.mp ⟨r, hr, hfetched⟩
    exact ⟨issuer, hissuer, ((uri_prefix_iff h).mp hpre).resolve_right (hnone issuer hissuer)⟩

section Samples

/-- The bytes that stand for themselves in a URI. -/
def unreserved (b : UInt8) : Bool :=
  (0x30 ≤ b && b ≤ 0x39) || (0x41 ≤ b && b ≤ 0x5A) || (0x61 ≤ b && b ≤ 0x7A) ||
    b = 0x2D || b = 0x2E || b = 0x5F || b = 0x7E

/-- The component is spelled as it is. -/
def plain (c : NameComponent) : Bool :=
  c.typ = 0x08 && c.value.any (· ≠ 0x2E) && c.value.all unreserved

/-- The text of plain components. Of others only that it determines them. -/
def sampleComponent (c : NameComponent) : Bytes :=
  if plain c then c.value
  else 0x25 :: Paths.spell 0x2E ((c.typ :: c.value.map UInt8.toNat).map Digits.decimal)

private theorem unreserved_of_plain {c : NameComponent} (h : plain c = true) {b : UInt8}
    (hb : b ∈ c.value) : unreserved b = true := by
  rw [plain, Bool.and_eq_true] at h
  exact List.all_eq_true.mp h.2 b hb

private theorem sampleComponent_laws : UriLaws sampleComponent where
  nonempty c := by
    rw [sampleComponent]
    split_ifs with h
    · intro hnil
      rw [plain, hnil] at h
      simp at h
    · exact List.cons_ne_nil _ _
  noSlash c := by
    rw [sampleComponent]
    split_ifs with h
    · intro hmem
      exact absurd (unreserved_of_plain h hmem) (by decide)
    · rw [List.mem_cons, not_or]
      refine ⟨by decide, fun hmem => ?_⟩
      obtain ⟨x, hx, hmem⟩ := List.mem_flatMap.mp hmem
      obtain ⟨n, -, rfl⟩ := List.mem_map.mp hx
      rcases List.mem_cons.mp hmem with hdot | hdigit
      · exact absurd hdot (by decide)
      · exact absurd (Digits.mem_decimal hdigit).1 (by decide)
  injective c c' heq := by
    have hdots : ∀ ns : List Nat, ∀ x ∈ ns.map Digits.decimal, (0x2E : UInt8) ∉ x := by
      intro ns x hx hmem
      obtain ⟨n, -, rfl⟩ := List.mem_map.mp hx
      exact absurd (Digits.mem_decimal hmem).1 (by decide)
    have hpercent : ∀ {c : NameComponent} {rest : Bytes}, plain c = true →
        c.value ≠ 0x25 :: rest := by
      intro c rest hplain hvalue
      exact absurd (unreserved_of_plain (b := 0x25) hplain (by simp [hvalue])) (by decide)
    rw [sampleComponent, sampleComponent] at heq
    split_ifs at heq with h h' h'
    · simp only [plain, Bool.and_eq_true, decide_eq_true_eq] at h h'
      cases c
      cases c'
      simp_all
    · exact absurd heq (hpercent h)
    · exact absurd heq.symm (hpercent h')
    · have hspell := (List.cons.injEq .. ▸ heq).2
      have hnumbers := List.map_injective_iff.mpr Digits.decimal_injective
        (Paths.spell_inj (hdots _) (hdots _) hspell)
      obtain ⟨htyp, hnats⟩ := List.cons.inj hnumbers
      have hvalue := List.map_injective_iff.mpr (fun _ _ => UInt8.toNat_inj.mp) hnats
      cases c
      cases c'
      simp_all

/-- The name `/ndn/ca`. -/
def sampleCa : Name := [.generic (asBytes "ndn"), .generic (asBytes "ca")]

/-- A certificate that was issued under it. -/
theorem sampleCa_accepts : AcceptsUnderCa sampleComponent (some []) sampleCa
    fun _ => .decoded (some (sampleCa ++ [.generic (asBytes "KEY"), .generic (asBytes "1")])) := by
  refine (acceptsUnderCa_iff sampleComponent sampleComponent_laws _ _ _).mpr ?_
  rintro issuer ⟨_, -, hissuer⟩ himpersonates
  cases hissuer
  exact himpersonates.not_prefix (List.prefix_append _ _)

/-- The name `/ndn/ca-evil/KEY/1`. -/
def evilIssuer : Name :=
  [.generic (asBytes "ndn"), .generic (asBytes "ca-evil"), .generic (asBytes "KEY"),
    .generic (asBytes "1")]

/-- It passes for a name under `/ndn/ca`. -/
theorem sampleCa_accepts_evil :
    ¬AcceptsUnderCa sampleComponent (some []) sampleCa fun _ => .decoded (some evilIssuer) := by
  intro h
  obtain ⟨issuer, ⟨_, -, hissuer⟩, hpre⟩ :=
    h ⟨[], uri sampleComponent evilIssuer, true⟩ (by decide) rfl
  cases hissuer
  exact absurd hpre (by decide)

end Samples

end NdnFwd.Enroll
