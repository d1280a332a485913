import NdnFwd.Core.Supply
import NdnFwd.Models.Startup.Config

/-!
# The face identifiers of a startup

Discovery takes identifiers for its multicast faces before the engine is built. Every
`[[face]]` entry then takes the identifier discovery has for it, or a fresh one. All of
them come from one allocator, in one order, so that no two faces can share one.
-/

namespace NdnFwd

/-- Ways in which a configuration ends the startup. -/
inductive StartupError
  /-- `node_name required when discovery is enabled`, a panic. -/
  | nodeNameRequired
  /-- `invalid discovery node_name`. -/
  | invalidNodeName (text : String)
  /-- `[demo_ca] invalid prefix`. -/
  | invalidCaPrefix (text : String)
  /-- `[demo_ca] keychain init failed`. -/
  | keychainInitFailed (identity : String)
  deriving DecidableEq, Repr

/-- The identifiers that discovery takes, and the position of the allocator after it. -/
structure PreAlloc where
  multicast : List (FaceId × Nat)
  autoUdp : List (FaceId × String × Ipv4Addr)
  etherMc : List (FaceId × Nat)
  autoEther : List (FaceId × String)
  next : Nat
  deriving DecidableEq, Repr

/-- `discovery_transport`, by default `udp`. -/
def DiscoverySection.transport (d : DiscoverySection) : String := d.discoveryTransport.getD "udp"

/-- Whether discovery uses UDP. -/
def DiscoverySection.useUdp (d : DiscoverySection) : Bool :=
  d.transport == "udp" || d.transport == "both"

/-- Whether discovery uses Ethernet. -/
def DiscoverySection.useEther (d : DiscoverySection) : Bool :=
  d.transport == "ether" || d.transport == "both"

/-- The indices of the entries of one kind. -/
def ForwarderConfig.entries (cfg : ForwarderConfig) (kind : FaceConfig → Bool) : List Nat :=
  (cfg.faces.zipIdx.filter fun e => kind e.1).map Prod.snd

private theorem ForwarderConfig.mem_entries {cfg : ForwarderConfig} {kind : FaceConfig → Bool}
    {idx : Nat} :
    idx ∈ cfg.entries kind ↔ ∃ entry, cfg.faces[idx]? = some entry ∧ kind entry = true := by
  simp only [entries, List.mem_map, List.mem_filter, List.mem_zipIdx_iff_getElem?,
    Prod.exists, exists_eq_right]

private theorem ForwarderConfig.nodup_entries (cfg : ForwarderConfig) (kind : FaceConfig → Bool) :
    (cfg.entries kind).Nodup := by
  have hall : (cfg.faces.zipIdx.map Prod.snd).Nodup := by
    rw [List.zipIdx_map_snd]
    exact List.nodup_range'
  exact hall.sublist (List.filter_sublist.map Prod.snd)

/-- No entry is of both multicast kinds. -/
theorem ForwarderConfig.entries_apart {cfg : ForwarderConfig} {idx : Nat}
    (h : idx ∈ cfg.entries FaceConfig.isMulticast) :
    idx ∉ cfg.entries FaceConfig.isEtherMulticast := by
  intro h'
  obtain ⟨entry, he, hm⟩ := mem_entries.mp h
  obtain ⟨entry', he', hm'⟩ := mem_entries.mp h'
  obtain rfl : entry = entry' := Option.some.inj (he.symm.trans he')
  cases entry with
  | multicast => cases hm'
  | udp | tcp | unix | webSocket | webTransport | quic | serial | etherMulticast | ether
  | radio => cases hm

namespace Node

variable (node : Node)

/-- One round of identifiers, skipped when the transport is not in use. -/
def preAllocRound {α : Type} (use : Bool) (next : Nat) (as : List α) : List (FaceId × α) × Nat :=
  if use then (Supply.tag node.allocFaceId next as, next + as.length) else ([], next)

/-- The four rounds of `main`, from the allocator at `next`. -/
def preAllocRounds (cfg : ForwarderConfig) (next : Nat) : PreAlloc :=
  let useUdp := cfg.discovery.useUdp
  let useEther := cfg.discovery.useEther
  let (multicast, n1) := node.preAllocRound useUdp next (cfg.entries FaceConfig.isMulticast)
  let (autoUdp, n2) := node.preAllocRound useUdp n1 (node.autoUdpIfaces cfg)
  let (etherMc, n3) := node.preAllocRound useEther n2 (cfg.entries FaceConfig.isEtherMulticast)
  let (autoEther, n4) := node.preAllocRound useEther n3 (node.autoEtherIfaces cfg)
  ⟨multicast, autoUdp, etherMc, autoEther, n4⟩

/-- Discovery as far as it takes identifiers; without it none are taken. -/
def preAllocate (cfg : ForwarderConfig) (next : Nat) : Except StartupError PreAlloc :=
  if cfg.discovery.enabled then
    match cfg.discovery.resolvedNodeName with
    | none => .error .nodeNameRequired
    | some text =>
      match node.parseName text with
      | none => .error (.invalidNodeName text)
      | some _ => .ok (node.preAllocRounds cfg next)
  else .ok ⟨[], [], [], [], next⟩

/-- A startup that passes discovery has taken the four rounds, or discovery is off. -/
theorem preAllocate_ok {node : Node} {cfg : ForwarderConfig} {next : Nat} {pa : PreAlloc}
    (h : node.preAllocate cfg next = .ok pa) :
    (cfg.discovery.enabled = true ∧ pa = node.preAllocRounds cfg next) ∨
      (cfg.discovery.enabled = false ∧ pa = ⟨[], [], [], [], next⟩) := by
  unfold preAllocate at h
  split at h
  next hon =>
    split at h
    next => cases h
    next =>
      split at h
      next => cases h
      next => exact Or.inl ⟨hon, (Except.ok.inj h).symm⟩
  next hoff => exact Or.inr ⟨Bool.not_eq_true _ ▸ hoff, (Except.ok.inj h).symm⟩

/-- The identifier that discovery has for an entry. -/
def reserved (pa : PreAlloc) (idx : Nat) : Option FaceId :=
  ((pa.multicast ++ pa.etherMc).find? fun e => e.2 == idx).map Prod.fst

/-- `face_ids_by_index`. -/
def faceIdsByIndex (cfg : ForwarderConfig) (pa : PreAlloc) : List FaceId :=
  Supply.assign node.allocFaceId (reserved pa) pa.next (List.range cfg.faces.length)

/-- Every `[[face]]` entry has an identifier. -/
@[simp] theorem length_faceIdsByIndex (cfg : ForwarderConfig) (pa : PreAlloc) :
    (node.faceIdsByIndex cfg pa).length = cfg.faces.length := by
  rw [faceIdsByIndex, Supply.length_assign, List.length_range]

end Node

/-- `id_for` of face setup, where `fresh` is what the engine would allocate. -/
def idFor (ids : List FaceId) (fresh : FaceId) (idx : Nat) : FaceId := ids[idx]?.getD fresh

namespace Node

/-- What a startup owes to discovery and to the route table: one identifier an entry, no
clash, and the identifiers that discovery was given for the entries it cares about. -/
structure FaceIdsSound (node : Node) (cfg : ForwarderConfig) (pa : PreAlloc) : Prop where
  length : (node.faceIdsByIndex cfg pa).length = cfg.faces.length
  nodup : (node.faceIdsByIndex cfg pa).Nodup
  apart : ∀ id ∈ node.faceIdsByIndex cfg pa,
    id ∉ pa.autoUdp.map Prod.fst ∧ id ∉ pa.autoEther.map Prod.fst
  agrees : ∀ id idx, (id, idx) ∈ pa.multicast ++ pa.etherMc →
    (node.faceIdsByIndex cfg pa)[idx]? = some id ∧
      ∀ fresh, idFor (node.faceIdsByIndex cfg pa) fresh idx = id
  multicast : cfg.discovery.enabled = true → cfg.discovery.useUdp = true →
    pa.multicast.map Prod.snd = cfg.entries FaceConfig.isMulticast
  etherMc : cfg.discovery.enabled = true → cfg.discovery.useEther = true →
    pa.etherMc.map Prod.snd = cfg.entries FaceConfig.isEtherMulticast

/-- The pairs of one round: its elements, with the identifiers from `lo` up to `hi`. -/
structure IsRound {α : Type} (node : Node) (as : List α) (lo hi : Nat) (pairs : List (FaceId × α)) :
    Prop where
  le : lo ≤ hi
  mem : ∀ id a, (id, a) ∈ pairs →
    ∃ i, as[i]? = some a ∧ lo + i < hi ∧ id = node.allocFaceId (lo + i)

private theorem isRound_preAllocRound (node : Node) {α : Type} (use : Bool) (next : Nat)
    (as : List α) :
    IsRound node as next (node.preAllocRound use next as).2
      (node.preAllocRound use next as).1 := by
  cases use with
  | false =>
    refine ⟨le_rfl, fun id a h => ?_⟩
    cases h
  | true =>
    refine ⟨Nat.le_add_right _ _, fun id a h => ?_⟩
    obtain ⟨i, hi, hlt, hid⟩ := Supply.mem_tag node.allocFaceId h
    exact ⟨i, hi, Nat.add_lt_add_left hlt next, hid⟩

private theorem isRound_nil (node : Node) {α : Type} (as : List α) (next : Nat) :
    IsRound node as next next [] := by
  refine ⟨le_rfl, fun id a h => ?_⟩
  cases h

/-- A round gives no identifier to two elements. -/
theorem IsRound.unique {node : Node} (hinj : Function.Injective node.allocFaceId) {α : Type}
    {as : List α} {lo hi : Nat} {pairs : List (FaceId × α)} (h : IsRound node as lo hi pairs)
    {id : FaceId} {a b : α} (ha : (id, a) ∈ pairs) (hb : (id, b) ∈ pairs) : a = b := by
  obtain ⟨i, hi, -, hid⟩ := h.mem id a ha
  obtain ⟨j, hj, -, hid'⟩ := h.mem id b hb
  obtain rfl : i = j := by
    have hij := hinj (hid.symm.trans hid')
    omega
  exact Option.some.inj (hi.symm.trans hj)

/-- A round gives no element two identifiers, if its elements are distinct. -/
theorem IsRound.unique_id {node : Node} {α : Type} {as : List α} {lo hi : Nat}
    {pairs : List (FaceId × α)} (h : IsRound node as lo hi pairs) (has : as.Nodup)
    {id id' : FaceId} {a : α} (ha : (id, a) ∈ pairs) (ha' : (id', a) ∈ pairs) : id = id' := by
  obtain ⟨i, hi, -, hid⟩ := h.mem id a ha
  obtain ⟨j, hj, -, hid'⟩ := h.mem id' a ha'
  obtain ⟨hlt, -⟩ := List.getElem?_eq_some_iff.mp hi
  obtain rfl : i = j := (List.getElem?_inj hlt has).mp (hi.trans hj.symm)
  rw [hid, hid']

/-- The elements of a round come from its list. -/
theorem IsRound.mem_list {node : Node} {α : Type} {as : List α} {lo hi : Nat}
    {pairs : List (FaceId × α)} (h : IsRound node as lo hi pairs) {id : FaceId} {a : α}
    (ha : (id, a) ∈ pairs) : a ∈ as := by
  obtain ⟨i, hi, -, -⟩ := h.mem id a ha
  exact List.mem_of_getElem? hi

/-- A transport in use covers every entry of its kind. -/
theorem preAllocate_entries {node : Node} {cfg : ForwarderConfig} {next : Nat} {pa : PreAlloc}
    (h : node.preAllocate cfg next = .ok pa) (hon : cfg.discovery.enabled = true) :
    (cfg.discovery.useUdp = true →
      pa.multicast.map Prod.snd = cfg.entries FaceConfig.isMulticast) ∧
    (cfg.discovery.useEther = true →
      pa.etherMc.map Prod.snd = cfg.entries FaceConfig.isEtherMulticast) := by
  obtain rfl : pa = node.preAllocRounds cfg next := by
    rcases preAllocate_ok h with ⟨-, hpa⟩ | ⟨hoff, -⟩
    · exact hpa
    · rw [hon] at hoff
      cases hoff
  constructor
  · intro huse
    simp only [preAllocRounds, preAllocRound, huse, if_true, Supply.map_snd_tag]
  · intro huse
    simp only [preAllocRounds, preAllocRound, huse, if_true, Supply.map_snd_tag]

/-- An entry has a reserved identifier exactly when discovery has taken one for it. -/
theorem mem_of_reserved {pa : PreAlloc} {idx : Nat} {id : FaceId} (h : reserved pa idx = some id) :
    (id, idx) ∈ pa.multicast ++ pa.etherMc := by
  obtain ⟨⟨id', idx'⟩, hfind, rfl⟩ := Option.map_eq_some_iff.mp h
  have hidx : idx' = idx := by simpa using List.find?_some hfind
  exact hidx ▸ List.mem_of_find?_eq_some hfind

private theorem reserved_of_mem {pa : PreAlloc} {idx : Nat} {id : FaceId}
    (h : (id, idx) ∈ pa.multicast ++ pa.etherMc) : ∃ id', reserved pa idx = some id' := by
  rw [← Option.isSome_iff_exists, reserved, Option.isSome_map, List.find?_isSome]
  exact ⟨_, h, by simp⟩

/-- The four rounds of a startup, one after the other. -/
structure Rounds (node : Node) (cfg : ForwarderConfig) (pa : PreAlloc) (n0 n1 n2 n3 : Nat) :
    Prop where
  multicast : IsRound node (cfg.entries FaceConfig.isMulticast) n0 n1 pa.multicast
  autoUdp : IsRound node (node.autoUdpIfaces cfg) n1 n2 pa.autoUdp
  etherMc : IsRound node (cfg.entries FaceConfig.isEtherMulticast) n2 n3 pa.etherMc
  autoEther : IsRound node (node.autoEtherIfaces cfg) n3 pa.next pa.autoEther

/-- A startup that passes discovery has taken its identifiers in four rounds. -/
theorem rounds_of_preAllocate {node : Node} {cfg : ForwarderConfig} {next : Nat} {pa : PreAlloc}
    (h : node.preAllocate cfg next = .ok pa) : ∃ n1 n2 n3, Rounds node cfg pa next n1 n2 n3 := by
  rcases preAllocate_ok h with ⟨-, rfl⟩ | ⟨-, rfl⟩
  · exact ⟨_, _, _, isRound_preAllocRound .., isRound_preAllocRound ..,
      isRound_preAllocRound .., isRound_preAllocRound ..⟩
  · exact ⟨next, next, next, isRound_nil .., isRound_nil .., isRound_nil .., isRound_nil ..⟩

section Rounds

variable {node : Node} {cfg : ForwarderConfig} {pa : PreAlloc} {n0 n1 n2 n3 : Nat}

/-- Where the identifier of an entry stands in the allocator. -/
theorem Rounds.place (h : Rounds node cfg pa n0 n1 n2 n3) {id : FaceId} {idx : Nat}
    (hmem : (id, idx) ∈ pa.multicast ++ pa.etherMc) :
    ∃ n, id = node.allocFaceId n ∧ (n < n1 ∨ n2 ≤ n ∧ n < n3) := by
  rcases List.mem_append.mp hmem with hmem | hmem
  · obtain ⟨i, -, hlt, hid⟩ := h.multicast.mem id idx hmem
    exact ⟨_, hid, Or.inl hlt⟩
  · obtain ⟨i, -, hlt, hid⟩ := h.etherMc.mem id idx hmem
    exact ⟨_, hid, Or.inr ⟨by omega, hlt⟩⟩

/-- No identifier was taken for two entries. -/
theorem Rounds.unique (h : Rounds node cfg pa n0 n1 n2 n3)
    (hinj : Function.Injective node.allocFaceId) {id : FaceId} {a b : Nat}
    (ha : (id, a) ∈ pa.multicast ++ pa.etherMc) (hb : (id, b) ∈ pa.multicast ++ pa.etherMc) :
    a = b := by
  have hcross : ∀ a b, (id, a) ∈ pa.multicast → (id, b) ∈ pa.etherMc → False := by
    intro a b ha hb
    obtain ⟨i, -, hlt, hid⟩ := h.multicast.mem id a ha
    obtain ⟨j, -, -, hid'⟩ := h.etherMc.mem id b hb
    have hij := hinj (hid.symm.trans hid')
    have hle := h.autoUdp.le
    omega
  rcases List.mem_append.mp ha with ha | ha <;> rcases List.mem_append.mp hb with hb | hb
  · exact h.multicast.unique hinj ha hb
  · exact (hcross a b ha hb).elim
  · exact (hcross b a hb ha).elim
  · exact h.etherMc.unique hinj ha hb

/-- No entry has two identifiers. -/
theorem Rounds.unique_id (h : Rounds node cfg pa n0 n1 n2 n3) {id id' : FaceId} {idx : Nat}
    (hid : (id, idx) ∈ pa.multicast ++ pa.etherMc)
    (hid' : (id', idx) ∈ pa.multicast ++ pa.etherMc) : id = id' := by
  rcases List.mem_append.mp hid with h1 | h1 <;> rcases List.mem_append.mp hid' with h2 | h2
  · exact h.multicast.unique_id (cfg.nodup_entries _) h1 h2
  · exact absurd (h.etherMc.mem_list h2) (ForwarderConfig.entries_apart (h.multicast.mem_list h1))
  · exact absurd (h.etherMc.mem_list h1) (ForwarderConfig.entries_apart (h.multicast.mem_list h2))
  · exact h.etherMc.unique_id (cfg.nodup_entries _) h1 h2

/-- Identifiers are reserved for entries of the configuration only. -/
theorem Rounds.lt_length (h : Rounds node cfg pa n0 n1 n2 n3) {id : FaceId} {idx : Nat}
    (hmem : (id, idx) ∈ pa.multicast ++ pa.etherMc) : idx < cfg.faces.length := by
  rcases List.mem_append.mp hmem with hmem | hmem
  · obtain ⟨entry, he, -⟩ := ForwarderConfig.mem_entries.mp (h.multicast.mem_list hmem)
    exact (List.getElem?_eq_some_iff.mp he).1
  · obtain ⟨entry, he, -⟩ := ForwarderConfig.mem_entries.mp (h.etherMc.mem_list hmem)
    exact (List.getElem?_eq_some_iff.mp he).1

/-- The entries have different identifiers. -/
theorem Rounds.nodup (h : Rounds node cfg pa n0 n1 n2 n3)
    (hinj : Function.Injective node.allocFaceId) : (node.faceIdsByIndex cfg pa).Nodup := by
  refine Supply.nodup_assign node.allocFaceId hinj List.nodup_range ?_ ?_
  · intro a b id ha hb
    exact h.unique hinj (mem_of_reserved ha) (mem_of_reserved hb)
  · intro a id ha
    obtain ⟨n, hid, hn⟩ := h.place (mem_of_reserved ha)
    have hle1 := h.autoUdp.le
    have hle2 := h.etherMc.le
    have hle3 := h.autoEther.le
    exact ⟨n, by omega, hid⟩

/-- The identifiers of the entries stand apart from those of the automatic interfaces. -/
theorem Rounds.apart (h : Rounds node cfg pa n0 n1 n2 n3)
    (hinj : Function.Injective node.allocFaceId) {id : FaceId}
    (hid : id ∈ node.faceIdsByIndex cfg pa) :
    id ∉ pa.autoUdp.map Prod.fst ∧ id ∉ pa.autoEther.map Prod.fst := by
  have hle1 := h.autoUdp.le
  have hle2 := h.etherMc.le
  have hle3 := h.autoEther.le
  obtain ⟨n, hn, hcase⟩ :
      ∃ n, id = node.allocFaceId n ∧ (n < n1 ∨ n2 ≤ n ∧ n < n3 ∨ pa.next ≤ n) := by
    rcases Supply.mem_assign node.allocFaceId hid with ⟨a, -, ha⟩ | ⟨n, hle, hn⟩
    · obtain ⟨n, hn, hcase⟩ := h.place (mem_of_reserved ha)
      exact ⟨n, hn, by omega⟩
    · exact ⟨n, hn, Or.inr (Or.inr hle)⟩
  constructor
  · intro hmem
    obtain ⟨⟨id', a⟩, ha, rfl⟩ := List.mem_map.mp hmem
    obtain ⟨i, -, hlt, hid'⟩ := h.autoUdp.mem _ a ha
    have hni := hinj (hn.symm.trans hid')
    omega
  · intro hmem
    obtain ⟨⟨id', a⟩, ha, rfl⟩ := List.mem_map.mp hmem
    obtain ⟨i, -, hlt, hid'⟩ := h.autoEther.mem _ a ha
    have hni := hinj (hn.symm.trans hid')
    omega

/-- An entry keeps the identifier that discovery was given for it. -/
theorem Rounds.getElem?_faceIds (h : Rounds node cfg pa n0 n1 n2 n3) {id : FaceId} {idx : Nat}
    (hmem : (id, idx) ∈ pa.multicast ++ pa.etherMc) :
    (node.faceIdsByIndex cfg pa)[idx]? = some id := by
  obtain ⟨id', hid'⟩ := reserved_of_mem hmem
  obtain rfl := h.unique_id hmem (mem_of_reserved hid')
  exact Supply.getElem?_assign node.allocFaceId (List.getElem?_range (h.lt_length hmem)) hid'

end Rounds

/-- The identifiers of a startup are as many as the entries, free of clashes, and those
that discovery was given. -/
theorem faceIds_sound (node : Node) (hinj : Function.Injective node.allocFaceId)
    (cfg : ForwarderConfig) (next : Nat) (pa : PreAlloc)
    (h : node.preAllocate cfg next = .ok pa) : FaceIdsSound node cfg pa := by
  obtain ⟨n1, n2, n3, hrounds⟩ := rounds_of_preAllocate h
  refine ⟨node.length_faceIdsByIndex cfg pa, hrounds.nodup hinj,
    fun id hid => hrounds.apart hinj hid, ?_,
    fun hon => (preAllocate_entries h hon).1, fun hon => (preAllocate_entries h hon).2⟩
  intro id idx hmem
  have hslot := hrounds.getElem?_faceIds hmem
  exact ⟨hslot, fun fresh => by rw [idFor, hslot, Option.getD_some]⟩

end Node

/-- The identifiers of a startup with discovery over both transports. -/
def samplePreAlloc : PreAlloc where
  multicast := [(⟨1⟩, 1)]
  autoUdp := [(⟨2⟩, "eth0", 0x0a000001)]
  etherMc := [(⟨3⟩, 2)]
  autoEther := [(⟨4⟩, "eth0")]
  next := 5

/-- A node with interfaces of both kinds. -/
theorem sampleNode_faceIds_sound :
    sampleNode.preAllocate (sampleConfig "both") 1 = .ok samplePreAlloc ∧
      Node.FaceIdsSound sampleNode (sampleConfig "both") samplePreAlloc := by
  have hinj : Function.Injective sampleNode.allocFaceId := fun _ _ h => congrArg FaceId.value h
  have hok : sampleNode.preAllocate (sampleConfig "both") 1 = .ok samplePreAlloc := by rfl
  exact ⟨hok, Node.faceIds_sound sampleNode hinj _ _ _ hok⟩

end NdnFwd
