import NdnFwd.Core.Digits
import NdnFwd.Core.Utf8
import NdnFwd.Models.Radio.Lines
import NdnFwd.Models.Startup.Config

/-!
# The watchers a configuration spawns

Face setup spawns one watcher for each radio that came up, and names it after the index of
the radio within its own face. Two radio faces count their radios from zero alike.
-/

namespace NdnFwd.Monitors

/-- The radios of one face that came up, by their `RadioId`; `None` of them is an error. -/
def mountRadioFace (cameUp : Nat → Bool) (radios : List RadioDeviceConfig) :
    Option (List UInt16) :=
  let built := (radios.zipIdx.filter fun r => cameUp r.2).map fun r => UInt16.ofNat r.2
  if built.isEmpty then none else some built

section Setup

variable (build : Build) (cameUp : Nat → Nat → Bool)

/-- The `link_probes` that the loop over the entries receives, by their radio; `none` when a
radio face ends the process. -/
def linkProbes : Nat → List FaceConfig → Option (List UInt16)
  | _, [] => some []
  | idx, entry :: entries =>
    match entry with
    | .radio radios =>
      if build.radio then
        match mountRadioFace (cameUp idx) radios with
        | some probes => (linkProbes (idx + 1) entries).map (probes ++ ·)
        | none => none
      else linkProbes (idx + 1) entries
    | _ => linkProbes (idx + 1) entries

/-- The watcher of one radio. -/
def linkWatcher (radioId : UInt16) : Watcher :=
  ⟨asBytes "link-" ++ Digits.decimal radioId.toNat, asBytes "link"⟩

/-- All watchers of a node, in the order in which they are spawned. -/
def watchers (probes : List UInt16) : List Watcher :=
  ⟨asBytes "uptime", asBytes "uptime"⟩ :: ⟨asBytes "forwarding", asBytes "soak"⟩ ::
    probes.map linkWatcher

/-- The `i`th radio of the entry `f` came up. -/
def Up (entries : List FaceConfig) (f i : Nat) : Prop :=
  build.radio = true ∧ ∃ radios, entries[f]? = some (.radio radios) ∧ i < radios.length ∧
    cameUp f i = true

/-- No two radios of the node that came up have one index within their faces, as 16 bits. -/
def IndicesApart (entries : List FaceConfig) : Prop :=
  ∀ f i f' i', Up build cameUp entries f i → Up build cameUp entries f' i' →
    UInt16.ofNat i = UInt16.ofNat i' → f = f' ∧ i = i'

/-- The radios of the entry `f` that came up. -/
def faceUp (f : Nat) : FaceConfig → List (Nat × Nat)
  | .radio radios =>
    if build.radio then ((List.range radios.length).filter (cameUp f)).map (Prod.mk f) else []
  | _ => []

/-- The radios that came up, each by its entry and its index. -/
def radiosUp (idx : Nat) (entries : List FaceConfig) : List (Nat × Nat) :=
  (entries.zipIdx idx).flatMap fun e => faceUp build cameUp e.2 e.1

end Setup

private theorem watchers_nodup_iff (probes : List UInt16) :
    ((watchers probes).map Watcher.id).Nodup ↔ probes.Nodup := by
  have hinj : Function.Injective fun rid => (linkWatcher rid).id := by
    intro rid rid' h
    exact UInt16.toNat_inj.mp (Digits.decimal_injective (List.append_cancel_left h))
  have hlink : ∀ w ∈ (probes.map linkWatcher).map Watcher.id, w.head? = some 0x6C := by
    intro w hw
    rw [List.map_map] at hw
    obtain ⟨rid, -, rfl⟩ := List.mem_map.mp hw
    rfl
  have hup : asBytes "uptime" ∉
      asBytes "forwarding" :: (probes.map linkWatcher).map Watcher.id := by
    intro hmem
    rcases List.mem_cons.mp hmem with h | h
    · exact absurd h (by decide)
    · exact absurd (hlink _ h) (by decide)
  have hfwd : asBytes "forwarding" ∉ (probes.map linkWatcher).map Watcher.id :=
    fun h => absurd (hlink _ h) (by decide)
  rw [watchers, List.map_cons, List.map_cons, List.nodup_cons, List.nodup_cons, List.map_map]
  rw [List.map_map] at hup hfwd
  rw [and_iff_right hup, and_iff_right hfwd]
  exact List.nodup_map_iff hinj

section Ids

variable {build : Build} {cameUp : Nat → Nat → Bool}

private theorem mountRadioFace_eq {up : Nat → Bool} {radios : List RadioDeviceConfig}
    {probes : List UInt16} (h : mountRadioFace up radios = some probes) :
    probes = ((List.range radios.length).filter up).map UInt16.ofNat := by
  simp only [mountRadioFace, Option.ite_none_left_eq_some, Option.some.injEq] at h
  rw [← h.2, List.range_eq_range', ← List.zipIdx_map_snd 0 radios, List.filter_map, List.map_map]
  rfl

private theorem mem_faceUp {f f' i : Nat} {entry : FaceConfig} :
    (f', i) ∈ faceUp build cameUp f entry ↔ f = f' ∧ build.radio = true ∧
      ∃ radios, entry = .radio radios ∧ i < radios.length ∧ cameUp f i = true := by
  cases entry with
  | radio radios =>
    by_cases hbuild : build.radio = true <;> simp [faceUp, hbuild, and_comm]
  | _ => simp [faceUp]

private theorem radiosUp_cons (idx : Nat) (entry : FaceConfig) (entries : List FaceConfig) :
    radiosUp build cameUp idx (entry :: entries) =
      faceUp build cameUp idx entry ++ radiosUp build cameUp (idx + 1) entries := by
  rw [radiosUp, List.zipIdx_cons, List.flatMap_cons, radiosUp]

/-- The probes carry the indices of the radios that came up. -/
theorem linkProbes_eq {idx : Nat} {entries : List FaceConfig} {probes : List UInt16}
    (h : linkProbes build cameUp idx entries = some probes) :
    probes = (radiosUp build cameUp idx entries).map fun r => UInt16.ofNat r.2 := by
  induction entries generalizing idx probes with
  | nil => exact (Option.some.inj h).symm
  | cons entry entries ih =>
    rw [radiosUp_cons, List.map_append]
    cases entry with
    | radio radios =>
      simp only [linkProbes, faceUp] at h ⊢
      split_ifs at h ⊢ with hbuild
      · cases hmount : mountRadioFace (cameUp idx) radios with
        | none => simp only [hmount, reduceCtorEq] at h
        | some face =>
          simp only [hmount, Option.map_eq_some_iff] at h
          obtain ⟨rest, hrest, rfl⟩ := h
          rw [← ih hrest, mountRadioFace_eq hmount, List.map_map]
          rfl
      · exact ih h
    | _ => exact ih h

private theorem mem_radiosUp {idx : Nat} {entries : List FaceConfig} {f i : Nat} :
    (f, i) ∈ radiosUp build cameUp idx entries ↔
      ∃ entry, (entry, f) ∈ entries.zipIdx idx ∧ (f, i) ∈ faceUp build cameUp f entry := by
  simp only [radiosUp, List.mem_flatMap, Prod.exists]
  constructor
  · rintro ⟨entry, f', hin, hup⟩
    obtain rfl := (mem_faceUp.mp hup).1
    exact ⟨entry, hin, hup⟩
  · rintro ⟨entry, hin, hup⟩
    exact ⟨entry, f, hin, hup⟩

/-- The listed radios of all entries are those that came up. -/
theorem mem_radiosUp_zero {entries : List FaceConfig} {f i : Nat} :
    (f, i) ∈ radiosUp build cameUp 0 entries ↔ Up build cameUp entries f i := by
  simp only [mem_radiosUp, mem_faceUp, List.mem_zipIdx_iff_getElem?, Up, true_and]
  constructor
  · rintro ⟨_, hentry, hbuild, radios, rfl, hup⟩
    exact ⟨hbuild, radios, hentry, hup⟩
  · rintro ⟨hbuild, radios, hentry, hup⟩
    exact ⟨_, hentry, hbuild, radios, rfl, hup⟩

private theorem radiosUp_nodup (idx : Nat) (entries : List FaceConfig) :
    (radiosUp build cameUp idx entries).Nodup := by
  induction entries generalizing idx with
  | nil => exact List.nodup_nil
  | cons entry entries ih =>
    rw [radiosUp_cons]
    refine List.Nodup.append ?_ (ih (idx + 1)) ?_
    · cases entry with
      | radio radios =>
        rw [faceUp]
        split_ifs
        · exact (List.nodup_range.filter _).map (Prod.mk_right_injective idx)
        · exact List.nodup_nil
      | _ => exact List.nodup_nil
    · rintro ⟨f, i⟩ hface hrest
      have hf := (mem_faceUp.mp hface).1
      obtain ⟨_, hin, -⟩ := mem_radiosUp.mp hrest
      have hle := List.le_snd_of_mem_zipIdx hin
      omega

end Ids

/-- Every watcher of a node has an entry to itself in every run exactly if no two of its radios
that came up have one index. -/
theorem watchers_separate_iff (build : Build) (cameUp : Nat → Nat → Bool)
    (entries : List FaceConfig) {probes : List UInt16}
    (h : linkProbes build cameUp 0 entries = some probes) :
    (∀ es, Separate (watchers probes) es) ↔ IndicesApart build cameUp entries := by
  rw [separate_iff_nodup, watchers_nodup_iff, linkProbes_eq h,
    List.nodup_map_iff_inj_on (radiosUp_nodup 0 entries)]
  constructor
  · intro hinj f i f' i' hup hup' heq
    have hpair := hinj (f, i) (mem_radiosUp_zero.mpr hup) (f', i') (mem_radiosUp_zero.mpr hup') heq
    exact Prod.mk.inj hpair
  · rintro hapart ⟨f, i⟩ hin ⟨f', i'⟩ hin' heq
    obtain ⟨rfl, rfl⟩ :=
      hapart f i f' i' (mem_radiosUp_zero.mp hin) (mem_radiosUp_zero.mp hin') heq
    rfl

/-- The indices of one radio face differ, as long as they fit in 16 bits. -/
theorem indicesApart_of_single {build : Build} {cameUp : Nat → Nat → Bool}
    {entries : List FaceConfig} (radioFace : Nat)
    (hsingle : ∀ f radios, entries[f]? = some (.radio radios) →
      f = radioFace ∧ radios.length ≤ 2 ^ 16) : IndicesApart build cameUp entries := by
  rintro f i f' i' ⟨-, radios, hf, hi, -⟩ ⟨-, radios', hf', hi', -⟩ heq
  obtain ⟨rfl, hlen⟩ := hsingle f radios hf
  obtain ⟨rfl, hlen'⟩ := hsingle f' radios' hf'
  have hmod : i % 2 ^ 16 = i' % 2 ^ 16 := by
    simpa only [UInt16.toNat_ofNat'] using congrArg UInt16.toNat heq
  rw [Nat.mod_eq_of_lt (hi.trans_le hlen), Nat.mod_eq_of_lt (hi'.trans_le hlen')] at hmod
  exact ⟨rfl, hmod⟩

section Samples

/-- A Linux build with radio faces. -/
def radioBuild : Build := ⟨.linux, false, false, false, false, false, true⟩

/-- A radio face of two radios, after another face. -/
def oneRadioFace : List FaceConfig := [.tcp none, .radio [⟨"rtl88xx"⟩, ⟨"mt76"⟩]]

/-- The radios of one face have different indices. -/
theorem oneRadioFace_separate :
    linkProbes radioBuild (fun _ _ => true) 0 oneRadioFace = some [0, 1] ∧
      ∀ es, Separate (watchers [0, 1]) es := by
  refine ⟨rfl, (watchers_separate_iff radioBuild (fun _ _ => true) oneRadioFace rfl).mpr ?_⟩
  apply indicesApart_of_single 1
  rintro (_ | _ | f) radios h
  · cases h
  · cases h
    exact ⟨rfl, by decide⟩
  · cases h

/-- Two radio faces of one radio each: starting the second watcher resets the first one's
counters. -/
theorem twoRadioFaces_not_separate :
    linkProbes radioBuild (fun _ _ => true) 0 [.radio [⟨"rtl88xx"⟩], .radio [⟨"mt76"⟩]] =
        some [0, 0] ∧
      ¬Separate (watchers [0, 0]) [.spawn 0, .spawn 0, .spawn 0, .tick 2 true [], .spawn 5] := by
  refine ⟨rfl, fun h => ?_⟩
  obtain ⟨e, he, -, hok, -⟩ := h.own 2 _ rfl (by decide)
  obtain ⟨e', he', -, hok', -⟩ := h.own 3 _ rfl (by decide)
  have hsame : e = e' := Option.some.inj (he.symm.trans he')
  rw [hsame, hok'] at hok
  exact absurd hok (by decide)

end Samples

end NdnFwd.Monitors
