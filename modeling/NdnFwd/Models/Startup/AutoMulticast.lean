import NdnFwd.Models.Startup.FaceSetup

/-!
# One automatic face an interface

The automatic multicast faces come from two sources: the lists discovery has taken
identifiers for, and the provisioner's own enumeration. Face setup leaves the second
source out as soon as either list is not empty. With both kinds switched on and a
discovery transport that takes identifiers for one of them, the other kind gets none.
-/

namespace NdnFwd

/-- Every selected address has one multicast UDP face, and every selected interface one
multicast Ethernet face. -/
structure OneFaceEach (node : Node) (cfg : ForwarderConfig) (faces : List AutoFace) : Prop where
  udp : (faces.filterMap AutoFace.udpTarget?).Perm (node.autoUdpIfaces cfg)
  ether : (faces.filterMap AutoFace.etherTarget?).Perm (node.autoEtherIfaces cfg)

/-- Discovery takes identifiers for one kind only while both kinds have interfaces. -/
def StarvesOneKind (node : Node) (cfg : ForwarderConfig) : Prop :=
  cfg.discovery.enabled = true ∧
    (cfg.discovery.transport = "udp" ∨ cfg.discovery.transport = "ether") ∧
    node.autoUdpIfaces cfg ≠ [] ∧ node.autoEtherIfaces cfg ≠ []

private theorem filterMap_of_some {α β γ : Type} {f : α → β} {g : β → Option γ} {t : α → γ}
    (h : ∀ a, g (f a) = some (t a)) (as : List α) : (as.map f).filterMap g = as.map t := by
  rw [List.filterMap_map, show g ∘ f = some ∘ t from funext h, List.filterMap_eq_map]

private theorem filterMap_of_none {α β γ : Type} {f : α → β} {g : β → Option γ}
    (h : ∀ a, g (f a) = none) (as : List α) : (as.map f).filterMap g = [] := by
  rw [List.filterMap_map]
  exact List.filterMap_eq_nil_iff.mpr fun a _ => h a

namespace DiscoverySection

/-- The transport `udp` is the one that uses UDP alone. -/
theorem transport_eq_udp_iff (d : DiscoverySection) :
    d.transport = "udp" ↔ d.useUdp = true ∧ d.useEther = false := by
  simp only [useUdp, useEther, Bool.or_eq_true, beq_iff_eq, Bool.or_eq_false_iff,
    beq_eq_false_iff_ne]
  constructor
  · intro h
    rw [h]
    decide
  · rintro ⟨h | h, hne, hne'⟩
    · exact h
    · exact absurd h hne'

/-- The transport `ether` is the one that uses Ethernet alone. -/
theorem transport_eq_ether_iff (d : DiscoverySection) :
    d.transport = "ether" ↔ d.useUdp = false ∧ d.useEther = true := by
  simp only [useUdp, useEther, Bool.or_eq_true, beq_iff_eq, Bool.or_eq_false_iff,
    beq_eq_false_iff_ne]
  constructor
  · intro h
    rw [h]
    decide
  · rintro ⟨⟨hne, hne'⟩, h | h⟩
    · exact h
    · exact absurd h hne'

end DiscoverySection

namespace Node

variable {node : Node} {cfg : ForwarderConfig} {pa : PreAlloc} {p : Provisioner}

/-- The targets that discovery has taken identifiers for. -/
theorem preAllocate_targets {next : Nat} (h : node.preAllocate cfg next = .ok pa) :
    pa.autoUdp.map Prod.snd =
        (if cfg.discovery.enabled && cfg.discovery.useUdp then node.autoUdpIfaces cfg else []) ∧
      pa.autoEther.map Prod.snd =
        (if cfg.discovery.enabled && cfg.discovery.useEther then node.autoEtherIfaces cfg
          else []) := by
  have hround : ∀ {α : Type} (use : Bool) (next : Nat) (as : List α),
      (node.preAllocRound use next as).1.map Prod.snd = if use then as else [] := by
    intro α use next as
    cases use with
    | false => rfl
    | true => exact Supply.map_snd_tag _ _ _
  rcases preAllocate_ok h with ⟨hon, rfl⟩ | ⟨hoff, rfl⟩
  · rw [hon, Bool.true_and, Bool.true_and]
    exact ⟨hround .., hround ..⟩
  · rw [hoff, Bool.false_and, Bool.false_and]
    exact ⟨rfl, rfl⟩

/-- Without any identifiers taken, the provisioner supplies both kinds. -/
theorem oneFaceEach_of_provision (hlaws : p.Laws node) (hudp : pa.autoUdp = [])
    (hether : pa.autoEther = []) : OneFaceEach node cfg (node.setupAuto p cfg pa) := by
  have hall : node.setupAuto p cfg pa = p.provision cfg.provisionConfig := by
    simp [setupAuto, hudp, hether]
  rw [hall]
  exact ⟨hlaws.udp cfg.provisionConfig, hlaws.ether cfg.provisionConfig⟩

/-- With an identifier taken, the faces are those with identifiers and no others. -/
theorem targets_setupAuto (cfg : ForwarderConfig) (hlinux : node.build.os = .linux)
    (hlaws : p.Laws node) (hsome : pa.autoUdp ≠ [] ∨ pa.autoEther ≠ []) :
    (node.setupAuto p cfg pa).filterMap AutoFace.udpTarget? = pa.autoUdp.map Prod.snd ∧
      (node.setupAuto p cfg pa).filterMap AutoFace.etherTarget? =
        pa.autoEther.map Prod.snd := by
  have hrest : (if cfg.watchInterfaces then p.spawnHotplugWatcher cfg.provisionConfig else []) =
      [] := by
    rw [hlaws.watcher, ite_self]
  unfold setupAuto
  rw [if_pos hlinux, if_pos hsome, hrest, List.append_nil, List.filterMap_append,
    List.filterMap_append]
  constructor
  · rw [filterMap_of_none fun _ => rfl, List.nil_append]
    refine filterMap_of_some (fun e => ?_) pa.autoUdp
    rfl
  · rw [filterMap_of_none (fun _ => rfl) pa.autoUdp, List.append_nil]
    refine filterMap_of_some (fun e => ?_) pa.autoEther
    rfl

/-- One kind starves when discovery is on with exactly one of the two kinds. -/
theorem starvesOneKind_iff : StarvesOneKind node cfg ↔
    cfg.discovery.enabled = true ∧ cfg.discovery.useUdp ≠ cfg.discovery.useEther ∧
      node.autoUdpIfaces cfg ≠ [] ∧ node.autoEtherIfaces cfg ≠ [] := by
  rw [StarvesOneKind, cfg.discovery.transport_eq_udp_iff, cfg.discovery.transport_eq_ether_iff]
  cases cfg.discovery.useUdp <;> cases cfg.discovery.useEther <;> simp

/-- With one of two lists kept back, both are complete only if nothing was left out. -/
private theorem complete_iff {α β : Type} (on useA useB : Bool) (as : List α) (bs : List β)
    (hsome : (if on && useA then as else []) ≠ [] ∨ (if on && useB then bs else []) ≠ []) :
    (if on && useA then as else []).Perm as ∧ (if on && useB then bs else []).Perm bs ↔
      ¬ (on = true ∧ useA ≠ useB ∧ as ≠ [] ∧ bs ≠ []) := by
  cases on with
  | false => simp at hsome
  | true =>
    cases useA <;> cases useB
    · simp at hsome
    · have hbs : bs ≠ [] := by simpa using hsome
      simp [hbs]
    · have has : as ≠ [] := by simpa using hsome
      simp [has]
    · simp

/-- With an identifier taken, no face is missing exactly when discovery covers both lists. -/
theorem oneFaceEach_iff_targets (hlinux : node.build.os = .linux) (hlaws : p.Laws node)
    (hsome : pa.autoUdp ≠ [] ∨ pa.autoEther ≠ []) :
    OneFaceEach node cfg (node.setupAuto p cfg pa) ↔
      (pa.autoUdp.map Prod.snd).Perm (node.autoUdpIfaces cfg) ∧
        (pa.autoEther.map Prod.snd).Perm (node.autoEtherIfaces cfg) := by
  obtain ⟨hudp, hether⟩ := targets_setupAuto cfg hlinux hlaws hsome
  rw [← hudp, ← hether]
  exact ⟨fun hone => ⟨hone.udp, hone.ether⟩, fun hboth => ⟨hboth.1, hboth.2⟩⟩

/-- Every automatic interface gets exactly one face of every kind it is selected for,
unless discovery starves one of the kinds. -/
theorem oneFaceEach_iff (node : Node) (hlinux : node.build.os = .linux) (p : Provisioner)
    (hlaws : p.Laws node) (cfg : ForwarderConfig) (next : Nat) (pa : PreAlloc)
    (h : node.preAllocate cfg next = .ok pa) :
    OneFaceEach node cfg (node.setupAuto p cfg pa) ↔ ¬ StarvesOneKind node cfg := by
  obtain ⟨hudp, hether⟩ := preAllocate_targets h
  rw [starvesOneKind_iff]
  by_cases hsome : pa.autoUdp ≠ [] ∨ pa.autoEther ≠ []
  · have hsome' : pa.autoUdp.map Prod.snd ≠ [] ∨ pa.autoEther.map Prod.snd ≠ [] := by
      simpa only [ne_eq, List.map_eq_nil_iff] using hsome
    rw [oneFaceEach_iff_targets hlinux hlaws hsome, hudp, hether]
    rw [hudp, hether] at hsome'
    exact complete_iff _ _ _ _ _ hsome'
  · push Not at hsome
    obtain ⟨hnoUdp, hnoEther⟩ := hsome
    apply iff_of_true (oneFaceEach_of_provision hlaws hnoUdp hnoEther)
    rw [hnoUdp, List.map_nil] at hudp
    rw [hnoEther, List.map_nil] at hether
    rintro ⟨hon, hne, hU, hE⟩
    rw [hon, Bool.true_and] at hudp hether
    cases hu : cfg.discovery.useUdp with
    | true =>
      rw [hu, if_pos rfl] at hudp
      exact hU hudp.symm
    | false =>
      cases he : cfg.discovery.useEther with
      | true =>
        rw [he, if_pos rfl] at hether
        exact hE hether.symm
      | false => exact hne (hu.trans he.symm)

end Node

/-- A provisioner that enumerates the interfaces of the node. -/
def Provisioner.enumerating (node : Node) : Provisioner where
  provision c :=
    (node.udpAddrs ⟨c.udpAuto, c.udpWhitelist, c.udpBlacklist⟩).map
        (fun t => .udp none t.1 t.2 c.udpAdHoc) ++
      (node.etherNames ⟨c.etherAuto, c.etherWhitelist, c.etherBlacklist⟩).map
        (.ether none)
  spawnHotplugWatcher _ := []

private theorem Provisioner.enumerating_laws (node : Node) : (enumerating node).Laws node where
  udp c := by
    simp only [enumerating, List.filterMap_append]
    rw [filterMap_of_none (f := AutoFace.ether none) (g := AutoFace.udpTarget?) fun _ => rfl,
      List.append_nil]
    refine .of_eq ((filterMap_of_some (t := id) (fun e => ?_) _).trans (List.map_id _))
    rfl
  ether c := by
    simp only [enumerating, List.filterMap_append]
    rw [filterMap_of_none fun _ => rfl, List.nil_append]
    refine .of_eq ((filterMap_of_some (t := id) (fun e => ?_) _).trans (List.map_id _))
    rfl
  watcher _ := rfl

/-- Discovery over both transports starves neither kind on the sample machine. -/
theorem sampleNode_oneFaceEach :
    sampleNode.preAllocate (sampleConfig "both") 1 = .ok samplePreAlloc ∧
      OneFaceEach sampleNode (sampleConfig "both")
        (sampleNode.setupAuto (.enumerating sampleNode) (sampleConfig "both") samplePreAlloc) := by
  have hok : sampleNode.preAllocate (sampleConfig "both") 1 = .ok samplePreAlloc := rfl
  refine ⟨hok, (Node.oneFaceEach_iff sampleNode rfl (.enumerating sampleNode)
    (Provisioner.enumerating_laws sampleNode) _ 1 _ hok).mpr ?_⟩
  rintro ⟨-, htransport, -⟩
  exact absurd htransport (by decide)

/-- Discovery over UDP, with no `[[face]]` entry for the interface. -/
def autoOnly : ForwarderConfig :=
  { sampleConfig "udp" with faces := [.udp (some "0.0.0.0:6363") none] }

/-- The interface then has no multicast Ethernet face. -/
theorem sampleNode_not_oneFaceEach :
    ∃ pa, sampleNode.preAllocate autoOnly 1 = .ok pa ∧
      ¬ OneFaceEach sampleNode autoOnly
        (sampleNode.setupAuto (.enumerating sampleNode) autoOnly pa) := by
  refine ⟨⟨[], [(⟨1⟩, "eth0", 0x0a000001)], [], [], 2⟩, rfl, fun h => ?_⟩
  have hlen := h.ether.length_eq
  exact absurd hlen (by decide)

end NdnFwd
