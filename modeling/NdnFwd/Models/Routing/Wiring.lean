import NdnFwd.Models.Routing.Installs

/-!
# How the routing protocols are wired

Whatever neighbours are configured and whichever of their faces open, the faces of both protocols
have identifiers of their own, and whatever is queued refers to a face that is staged. A face that
may pin an Interest to a next hop leads to the protocol itself, and is never a next hop.
-/

namespace NdnFwd.Routing

variable {node : Node} {env : Surroundings}

/-- The builder after some faces were staged under identifiers drawn since. -/
structure Grows (node : Node) (b b' : EngineBuilder) (added : List (FaceId × Transport)) :
    Prop where
  faces : b'.faces = b.faces ++ added
  drawn : Drawn node.allocFaceId b.next b'.next (added.map Prod.fst)

namespace Grows

variable {b b' b'' : EngineBuilder} {added more : List (FaceId × Transport)}

/-- Nothing is mounted. -/
theorem refl (b : EngineBuilder) : Grows node b b [] := ⟨(List.append_nil _).symm, .nil le_rfl⟩

/-- More is mounted. -/
theorem trans (h : Grows node b b' added) (h' : Grows node b' b'' more) :
    Grows node b b'' (added ++ more) where
  faces := by rw [h'.faces, h.faces, List.append_assoc]
  drawn := by
    rw [List.map_append]
    exact h.drawn.append h'.drawn

/-- An identifier is drawn. -/
theorem bump (b : EngineBuilder) : Grows node b b.bump [] :=
  ⟨(List.append_nil _).symm, .nil (Nat.le_succ _)⟩

/-- A face under the next identifier. -/
theorem addFace (node : Node) (b : EngineBuilder) (t : Transport) :
    Grows node b (b.bump.addFace (node.allocFaceId b.next) t) [(node.allocFaceId b.next, t)] :=
  ⟨rfl, .single b.next⟩

/-- An in-process face is mounted. -/
theorem addInProc (node : Node) (b : EngineBuilder) (capacity : Nat) :
    Grows node b (addInProc node b capacity).1
      [((Routing.addInProc node b capacity).2, .inProc capacity)] :=
  addFace node b (.inProc capacity)

private theorem mem_faces (h : Grows node b b' added) {f : FaceId × Transport} (hf : f ∈ added) :
    f ∈ b'.faces := by
  rw [h.faces]
  exact List.mem_append_right _ hf

end Grows

/-- What is known of `mount_routing_status`: it stages faces of its own, and answers for the status
prefix through them. -/
structure MountLaws (node : Node) (env : Surroundings) : Prop where
  mounts : ∀ name s, ∃ added entries, Grows node s.1 (env.mountRoutingStatus name s).1 added ∧
    (env.mountRoutingStatus name s).1.routing = s.1.routing ∧
    (env.mountRoutingStatus name s).2.fib = s.2.fib ++ entries ∧
    (∀ e ∈ entries, e.1 = name ∧ e.2.1 ∈ added.map Prod.fst) ∧
    (env.mountRoutingStatus name s).2.seeds = s.2.seeds ∧
    (env.mountRoutingStatus name s).2.localFields = s.2.localFields

/-- The entry is for a configured neighbour, over the UDP face that was opened to its address. -/
def OpenedFor (node : Node) (neighbors : List NeighbourToml) (faces : List (FaceId × Transport))
    (e : Name × FaceId) : Prop :=
  ∃ n ∈ neighbors, ∃ peer, node.parseSocketAddr (addrOf n.faceUri) = some peer ∧
    e.1 = node.nameOrRoot n.name ∧ (e.2, .udp (unspecifiedFor peer) peer) ∈ faces

section Neighbours

/-- More neighbours may be opened. -/
theorem OpenedFor.mono {neighbors more : List NeighbourToml}
    {faces faces' : List (FaceId × Transport)} {e : Name × FaceId}
    (h : OpenedFor node neighbors faces e) (hneighbors : ∀ n ∈ neighbors, n ∈ more)
    (hfaces : ∀ f ∈ faces, f ∈ faces') :
    OpenedFor node more faces' e := by
  obtain ⟨n, hn, peer, hpeer, hname, hface⟩ := h
  exact ⟨n, hneighbors n hn, peer, hpeer, hname, hfaces _ hface⟩

/-- What the loop over the neighbours leaves. -/
theorem openNeighbours_spec (env : Surroundings) (b : EngineBuilder) (ns : List NeighbourToml) :
    ∃ added, Grows node b (openNeighbours node env b ns).1 added ∧
      (openNeighbours node env b ns).1.routing = b.routing ∧
      (openNeighbours node env b ns).2.map Prod.snd = added.map Prod.fst ∧
      ∀ e ∈ (openNeighbours node env b ns).2, OpenedFor node ns added e := by
  induction ns generalizing b with
  | nil => exact ⟨[], Grows.refl b, rfl, rfl, fun e he => absurd he List.not_mem_nil⟩
  | cons n ns ih =>
    have htail : ∀ {faces e}, OpenedFor node ns faces e → OpenedFor node (n :: ns) faces e :=
      fun h => h.mono (fun _ => List.mem_cons_of_mem n) fun _ hf => hf
    rw [openNeighbours]
    cases hpeer : node.parseSocketAddr (addrOf n.faceUri) with
    | none =>
      obtain ⟨added, hgrows, hrouting, hids, hopened⟩ := ih b
      exact ⟨added, hgrows, hrouting, hids, fun e he => htail (hopened e he)⟩
    | some peer =>
      simp only
      by_cases hbinds : env.binds (unspecifiedFor peer) peer (node.allocFaceId b.next) = true
      · rw [if_pos hbinds]
        have hface := Grows.addFace node b (.udp (unspecifiedFor peer) peer)
        obtain ⟨added, hgrows, hrouting, hids, hopened⟩ :=
          ih (b.bump.addFace (node.allocFaceId b.next) (.udp (unspecifiedFor peer) peer))
        refine ⟨_, hface.trans hgrows, hrouting, ?_, ?_⟩
        · rw [List.map_cons, hids]
          rfl
        · intro e he
          rcases List.mem_cons.mp he with rfl | he
          · exact ⟨n, List.mem_cons_self, peer, hpeer, rfl, List.mem_append_left _
              List.mem_cons_self⟩
          · exact (htail (hopened e he)).mono (fun _ hn => hn) fun _ hf =>
              List.mem_append_right _ hf
      · rw [if_neg hbinds]
        obtain ⟨added, hgrows, hrouting, hids, hopened⟩ := ih b.bump
        exact ⟨added, (Grows.bump b).trans hgrows, hrouting, hids,
          fun e he => htail (hopened e he)⟩

/-- Each neighbour with a face gets a hello consumer of its own. -/
theorem addHelloConsumers_spec (node : Node) (b : EngineBuilder) (ns : List (Name × FaceId)) :
    Grows node b (addHelloConsumers node b ns).1
        ((addHelloConsumers node b ns).2.map fun h => (h.2, .inProc 64)) ∧
      (addHelloConsumers node b ns).1.routing = b.routing ∧
      (addHelloConsumers node b ns).2.map Prod.fst = ns.map Prod.fst := by
  induction ns generalizing b with
  | nil => exact ⟨Grows.refl b, rfl, rfl⟩
  | cons n ns ih =>
    obtain ⟨hgrows, hrouting, hnames⟩ := ih (addInProc node b 64).1
    rw [addHelloConsumers]
    refine ⟨(Grows.addInProc node b 64).trans hgrows, hrouting, ?_⟩
    rw [List.map_cons, hnames]
    rfl

end Neighbours

section Installers

/-- What the installation of NLSR adds. The consumers come first, and nothing queued refers to
them. -/
theorem nlsr_install_spec (hmount : MountLaws node env) (self : NlsrInstaller) (s : Staged) :
    ∃ io b late entries,
      Grows node s.1 b (io.helloNeighborHandles.map (fun h => (h.2, .inProc 64)) ++
        [(io.syncLsaHandle, .inProc 256)]) ∧
      Grows node b (self.install node env s).1 late ∧
      (self.install node env s).1.routing = s.1.routing ++ [.nlsr self.cfg io] ∧
      (self.install node env s).2.fib = s.2.fib ++ entries ∧
      (∀ e ∈ entries, e.2.1 ∈ late.map Prod.fst) ∧
      (self.install node env s).2.seeds = s.2.seeds ∧
      (self.install node env s).2.localFields =
        s.2.localFields ++ io.helloNeighborHandles.map Prod.snd ++ [io.syncLsaHandle] ∧
      io.neighborFaceIds = self.neighbourFaceIds ∧
      io.helloNeighborHandles.map Prod.fst = self.neighbourFaceIds.map Prod.fst := by
  obtain ⟨hhello, hrouting, hnames⟩ :=
    addHelloConsumers_spec node s.1 self.neighbourFaceIds
  have hr : ∀ (b : EngineBuilder) capacity, (addInProc node b capacity).1.routing = b.routing :=
    fun _ _ => rfl
  rw [NlsrInstaller.install]
  generalize addHelloConsumers node s.1 self.neighbourFaceIds = consumers at *
  obtain ⟨b₁, handles⟩ := consumers
  dsimp only at *
  -- one in-process face after the other
  have hsync := Grows.addInProc node b₁ 256
  have hrsync := hr b₁ 256
  generalize addInProc node b₁ 256 = r at *
  obtain ⟨b₂, syncLsa⟩ := r
  dsimp only at *
  have hp₁ := Grows.addInProc node b₂ 64
  have hrp₁ := hr b₂ 64
  generalize addInProc node b₂ 64 = r at *
  obtain ⟨b₃, helloProducer⟩ := r
  dsimp only at *
  have hp₂ := Grows.addInProc node b₃ 256
  have hrp₂ := hr b₃ 256
  generalize addInProc node b₃ 256 = r at *
  obtain ⟨b₄, syncProducer⟩ := r
  dsimp only at *
  have hp₃ := Grows.addInProc node b₄ 256
  have hrp₃ := hr b₄ 256
  generalize addInProc node b₄ 256 = r at *
  obtain ⟨b₅, lsaProducer⟩ := r
  have hproducers := (hp₁.trans hp₂).trans hp₃
  dsimp only at *
  obtain ⟨mounted, entries, hgrows, hmrouting, hfib, hentries, hseeds, hlocal⟩ :=
    hmount.mounts statusPrefix
      ({ b₅ with routing :=
          b₅.routing ++ [.nlsr self.cfg ⟨self.neighbourFaceIds, handles, syncLsa⟩] }, s.2)
  have hlate := hproducers.trans ⟨hgrows.faces, hgrows.drawn⟩
  refine ⟨⟨self.neighbourFaceIds, handles, syncLsa⟩, b₂, _,
    entries ++ self.fibEntries helloProducer syncProducer lsaProducer,
    hhello.trans hsync, hlate, ?_, ?_, ?_, hseeds, ?_, rfl, hnames⟩
  · rw [hmrouting, hrp₃, hrp₂, hrp₁, hrsync, hrouting]
  · rw [hfib, List.append_assoc]
  · intro e he
    rw [List.map_append]
    rcases List.mem_append.mp he with he | he
    · exact List.mem_append_right _ (hentries e he).2
    · apply List.mem_append_left
      simp only [NlsrInstaller.fibEntries, List.mem_cons, List.not_mem_nil, or_false] at he
      rcases he with rfl | rfl | rfl <;> simp
  · rw [hlocal]

/-- What the installation of ndn-dv adds. -/
theorem dv_install_spec (hmount : MountLaws node env) (self : DvInstaller) (s : Staged) :
    ∃ added entries, Grows node s.1 (self.install env s).1 added ∧
      (self.install env s).1.routing = s.1.routing ++ [.dv self.dv] ∧
      (self.install env s).2.fib =
        s.2.fib ++ self.pfsRoutes.map (fun e => (e.1, e.2, 0)) ++ entries ∧
      (∀ e ∈ entries, e.2.1 ∈ added.map Prod.fst) ∧
      (self.install env s).2.seeds = s.2.seeds ++ self.neighbourSeeds ∧
      (self.install env s).2.localFields = s.2.localFields := by
  obtain ⟨mounted, entries, hgrows, hrouting, hfib, hentries, hseeds, hlocal⟩ :=
    hmount.mounts statusPrefix
      ({ s.1 with
        discovery := s.1.discovery ++ [.dv self.dv], routing := s.1.routing ++ [.dv self.dv] },
        { s.2 with
          seeds := s.2.seeds ++ self.neighbourSeeds
          fib := s.2.fib ++ self.pfsRoutes.map fun e => (e.1, e.2, 0) })
  exact ⟨mounted, entries, ⟨hgrows.faces, hgrows.drawn⟩, hrouting, hfib,
    fun e he => (hentries e he).2, hseeds, hlocal⟩

end Installers

section Stages

variable {b₀ : EngineBuilder} {nlsr : NlsrToml} {dv : DvToml}

/-- The faces staged so far are those of neighbours and consumers and, drawn later, those that are
next hops or answer for something. Those that may pin are of the first kind. -/
structure Parted (node : Node) (b₀ : EngineBuilder) (s : Staged)
    (early late : List (FaceId × Transport)) : Prop where
  faces : s.1.faces = b₀.faces ++ (early ++ late)
  drawn : ∃ mid, Drawn node.allocFaceId b₀.next mid (early.map Prod.fst) ∧
    Drawn node.allocFaceId mid s.1.next (late.map Prod.fst)
  fib : ∀ e ∈ s.2.fib, e.2.1 ∈ late.map Prod.fst
  localFields : ∀ id ∈ s.2.localFields, ∃ capacity, (id, .inProc capacity) ∈ early

private theorem Parted.extend {s s' : Staged} {early late added : List (FaceId × Transport)}
    {entries : List (Name × FaceId × Nat)} (h : Parted node b₀ s early late)
    (hgrows : Grows node s.1 s'.1 added) (hfib : s'.2.fib = s.2.fib ++ entries)
    (hentries : ∀ e ∈ entries, e.2.1 ∈ added.map Prod.fst)
    (hlocal : s'.2.localFields = s.2.localFields) : Parted node b₀ s' early (late ++ added) where
  faces := by rw [hgrows.faces, h.faces, List.append_assoc, List.append_assoc]
  drawn := by
    obtain ⟨mid, hearly, hlate⟩ := h.drawn
    rw [List.map_append]
    exact ⟨mid, hearly, hlate.append hgrows.drawn⟩
  fib := by
    intro e he
    rw [hfib] at he
    rw [List.map_append]
    rcases List.mem_append.mp he with he | he
    · exact List.mem_append_left _ (h.fib e he)
    · exact List.mem_append_right _ (hentries e he)
  localFields := by
    rw [hlocal]
    exact h.localFields

/-- How NLSR talks to the engine: through a hello consumer for each neighbour with a face, and one
consumer for the rest. These may pin their Interests. -/
structure NlsrWired (node : Node) (nlsr : NlsrToml) (s : Staged) (io : NlsrIo) : Prop where
  localFields : s.2.localFields = io.helloNeighborHandles.map Prod.snd ++ [io.syncLsaHandle]
  handles : io.helloNeighborHandles.map Prod.fst = io.neighborFaceIds.map Prod.fst
  opened : ∀ e ∈ io.neighborFaceIds, OpenedFor node nlsr.neighbors s.1.faces e

private theorem stageNlsr_spec (hmount : MountLaws node env) (nlsr : NlsrToml)
    (b₀ : EngineBuilder) :
    (∃ early late, Parted node b₀ (stageNlsr node env nlsr (b₀, .new)) early late) ∧
      (stageNlsr node env nlsr (b₀, .new)).2.seeds = [] ∧
      (nlsr.enabled = true → ∃ io, .nlsr (nlsrConfig node env nlsr) io ∈
        (stageNlsr node env nlsr (b₀, .new)).1.routing ∧
          NlsrWired node nlsr (stageNlsr node env nlsr (b₀, .new)) io) ∧
      (nlsr.enabled = false → (stageNlsr node env nlsr (b₀, .new)).2.localFields = []) := by
  cases hon : nlsr.enabled with
  | false =>
    have hoff : stageNlsr node env nlsr (b₀, .new) = (b₀, .new) := by
      simp [stageNlsr, prepareNlsr, hon]
    rw [hoff]
    refine ⟨⟨[], [], ?_⟩, rfl, (fun h => by cases h), fun _ => rfl⟩
    exact ⟨(List.append_nil _).symm, ⟨b₀.next, .nil le_rfl, .nil le_rfl⟩,
      fun e he => absurd he List.not_mem_nil, fun id hid => absurd hid List.not_mem_nil⟩
  | true =>
    have hon' : stageNlsr node env nlsr (b₀, .new) =
        NlsrInstaller.install node env
          ⟨nlsrConfig node env nlsr, (openNeighbours node env b₀ nlsr.neighbors).2⟩
          ((openNeighbours node env b₀ nlsr.neighbors).1, .new) := by
      simp [stageNlsr, prepareNlsr, hon]
    obtain ⟨added, hgrows, -, -, hopened⟩ := openNeighbours_spec env b₀ nlsr.neighbors
    obtain ⟨io, b, late, entries, hearly, hlate, hrouting, hfib, hentries, hseeds, hlocal, hfaces,
      hnames⟩ := nlsr_install_spec hmount
        ⟨nlsrConfig node env nlsr, (openNeighbours node env b₀ nlsr.neighbors).2⟩
        ((openNeighbours node env b₀ nlsr.neighbors).1, .new)
    rw [← hon'] at hlate hrouting hfib hseeds hlocal
    have hbefore := hgrows.trans hearly
    have hall := hbefore.trans hlate
    refine ⟨⟨_, late, ⟨?_, ⟨b.next, hbefore.drawn, hlate.drawn⟩, ?_, ?_⟩⟩, hseeds, fun _ => ?_,
      (fun h => by cases h)⟩
    · rw [hall.faces]
    · rw [hfib]
      exact hentries
    · intro id hid
      rw [hlocal] at hid
      rcases List.mem_append.mp hid with hid | hid
      · obtain ⟨h, hh, rfl⟩ := List.mem_map.mp hid
        exact ⟨64, List.mem_append_right _ (List.mem_append_left _
          (List.mem_map_of_mem (f := fun h : Name × FaceId => (h.2, Transport.inProc 64)) hh))⟩
      · rw [List.mem_singleton.mp hid]
        exact ⟨256, List.mem_append_right _ (List.mem_append_right _ List.mem_cons_self)⟩
    · refine ⟨io, ?_, ?_, ?_, ?_⟩
      · rw [hrouting]
        exact List.mem_append_right _ List.mem_cons_self
      · exact hlocal
      · rw [hfaces, hnames]
      · intro e he
        rw [hfaces] at he
        refine (hopened e he).mono (fun _ hn => hn) fun f hf => hall.mem_faces ?_
        exact List.mem_append_left _ (List.mem_append_left _ hf)

private theorem stageDv_spec (hmount : MountLaws node env) (dv : DvToml) (s : Staged) :
    ∃ added entries opened, Grows node s.1 (stageDv node env dv s).1 added ∧
      (∀ p ∈ s.1.routing, p ∈ (stageDv node env dv s).1.routing) ∧
      (stageDv node env dv s).2.fib = s.2.fib ++ entries ∧
      (∀ e ∈ entries, e.2.1 ∈ added.map Prod.fst) ∧
      (stageDv node env dv s).2.seeds = s.2.seeds ++ opened ∧
      (∀ e ∈ opened, OpenedFor node dv.neighbors added e ∧
        (pfsGroup (node.nameOrRoot dv.network), e.2, 0) ∈ entries) ∧
      (stageDv node env dv s).2.localFields = s.2.localFields := by
  cases hon : dv.enabled with
  | false =>
    have hoff : stageDv node env dv s = s := by simp [stageDv, prepareDv, hon]
    rw [hoff]
    exact ⟨[], [], [], Grows.refl s.1, fun _ hp => hp, (List.append_nil _).symm,
      fun e he => absurd he List.not_mem_nil, (List.append_nil _).symm,
      fun e he => absurd he List.not_mem_nil, rfl⟩
  | true =>
    let b := (s.1.bump.bump.addFace (node.allocFaceId s.1.next) (.inProc 256)).addFace
      (node.allocFaceId (s.1.next + 1)) (.inProc 256)
    let network := node.nameOrRoot dv.network
    let installer : DvInstaller := {
      dv := ⟨network, node.nameOrRoot dv.router, node.allocFaceId s.1.next,
        node.allocFaceId (s.1.next + 1), node.allocFaceId (s.1.next + 1)⟩
      neighbourSeeds := (openNeighbours node env b dv.neighbors).2
      pfsRoutes := (openNeighbours node env b dv.neighbors).2.map fun e => (pfsGroup network, e.2) }
    have hon' : stageDv node env dv s =
        installer.install env ((openNeighbours node env b dv.neighbors).1, s.2) := by
      simp [stageDv, prepareDv, hon, installer, b, network]
    have hown : Grows node s.1 b [(node.allocFaceId s.1.next, .inProc 256),
        (node.allocFaceId (s.1.next + 1), .inProc 256)] :=
      ⟨List.append_assoc .., (Drawn.single (s.1.next + 1)).cons⟩
    obtain ⟨opened, hgrows, hrouting, hids, hopened⟩ :=
      openNeighbours_spec env b dv.neighbors
    obtain ⟨mounted, entries, hinstall, hroutes, hfib, hentries, hseeds, hlocal⟩ :=
      dv_install_spec hmount installer ((openNeighbours node env b dv.neighbors).1, s.2)
    rw [← hon'] at hinstall hroutes hfib hseeds hlocal
    have hall := (hown.trans hgrows).trans hinstall
    refine ⟨_, installer.pfsRoutes.map (fun e => (e.1, e.2, 0)) ++ entries, _, hall, ?_, ?_, ?_,
      hseeds, ?_, hlocal⟩
    · intro p hp
      rw [hroutes, hrouting]
      exact List.mem_append_left _ hp
    · rw [hfib, List.append_assoc]
    · intro e he
      rw [List.map_append, List.map_append, ← hids]
      rcases List.mem_append.mp he with he | he
      · simp only [installer, List.map_map, List.mem_map, Function.comp_apply] at he
        obtain ⟨e', he', rfl⟩ := he
        exact List.mem_append_left _ (List.mem_append_right _ (List.mem_map_of_mem he'))
      · exact List.mem_append_right _ (hentries e he)
    · intro e he
      refine ⟨(hopened e he).mono (fun _ hn => hn) fun f hf =>
        List.mem_append_left _ (List.mem_append_right _ hf), List.mem_append_left _ ?_⟩
      simp only [installer, List.map_map, List.mem_map, Function.comp_apply]
      exact ⟨e, he, rfl⟩

/-- What the routing protocols leave for the engine. -/
structure Wired (node : Node) (env : Surroundings) (nlsr : NlsrToml) (dv : DvToml)
    (b₀ : EngineBuilder) (s : Staged) : Prop where
  /-- No two faces have the same identifier. -/
  nodup : (s.1.faces.map Prod.fst).Nodup
  /-- New faces have identifiers that nothing drew before. -/
  drawn : ∀ f ∈ s.1.faces, f ∈ b₀.faces ∨
    ∃ n, b₀.next ≤ n ∧ n < s.1.next ∧ f.1 = node.allocFaceId n
  /-- A queued next hop is a new face. -/
  nextHops : ∀ e ∈ s.2.fib, ∃ t, (e.2.1, t) ∈ s.1.faces ∧ (e.2.1, t) ∉ b₀.faces
  /-- A neighbour that ndn-dv starts with is a configured one, and in the group of its prefix
  sync. -/
  seeds : ∀ e ∈ s.2.seeds, OpenedFor node dv.neighbors s.1.faces e ∧
    (pfsGroup (node.nameOrRoot dv.network), e.2, 0) ∈ s.2.fib
  /-- A face that may pin is in-process and no next hop. -/
  pinning : ∀ id ∈ s.2.localFields, (∃ capacity, (id, .inProc capacity) ∈ s.1.faces) ∧
    ∀ e ∈ s.2.fib, e.2.1 ≠ id
  nlsrOn : nlsr.enabled = true → ∃ io, .nlsr (nlsrConfig node env nlsr) io ∈ s.1.routing ∧
    NlsrWired node nlsr s io
  nlsrOff : nlsr.enabled = false → s.2.localFields = []

/-- However many neighbours are configured and whichever of their faces open, the protocols are
wired up. -/
theorem installRouting_wired (hinj : Function.Injective node.allocFaceId)
    (hmount : MountLaws node env) (nlsr : NlsrToml) (dv : DvToml) {b₀ : EngineBuilder}
    (hnodup : (b₀.faces.map Prod.fst).Nodup)
    (hfresh : ∀ n, b₀.next ≤ n → n < (installRouting node env nlsr dv b₀).1.next →
      node.allocFaceId n ∉ b₀.faces.map Prod.fst) :
    Wired node env nlsr dv b₀ (installRouting node env nlsr dv b₀) := by
  obtain ⟨⟨early, late, hparted⟩, hnone, hon, hoff⟩ := stageNlsr_spec hmount nlsr b₀
  obtain ⟨added, entries, opened, hgrows, hrouting, hfib, hentries, hseeds, hopened, hlocal⟩ :=
    stageDv_spec hmount dv (stageNlsr node env nlsr (b₀, .new))
  have hfinal := hparted.extend hgrows hfib hentries hlocal
  rw [installRouting] at hfresh ⊢
  generalize stageDv node env dv (stageNlsr node env nlsr (b₀, .new)) = s at *
  generalize stageNlsr node env nlsr (b₀, .new) = s₁ at *
  obtain ⟨mid, hearly, hlate⟩ := hfinal.drawn
  have hdrawn := hearly.append hlate
  have hnew : ∀ id ∈ (early ++ (late ++ added)).map Prod.fst, id ∉ b₀.faces.map Prod.fst := by
    intro id hid
    rw [List.map_append] at hid
    obtain ⟨n, hn, hlt, rfl⟩ := hdrawn.place_of_mem hid
    exact hfresh n hn hlt
  have hmem : ∀ f ∈ early ++ (late ++ added), f ∈ s.1.faces := fun f hf => by
    rw [hfinal.faces]
    exact List.mem_append_right _ hf
  refine ⟨?_, ?_, ?_, ?_, ?_, ?_, ?_⟩
  · rw [hfinal.faces, List.map_append]
    refine List.nodup_append.mpr ⟨hnodup, ?_, fun id hid id' hid' heq => ?_⟩
    · rw [List.map_append]
      exact hdrawn.nodup hinj
    · exact hnew id' hid' (heq ▸ hid)
  · intro f hf
    rw [hfinal.faces] at hf
    rcases List.mem_append.mp hf with hf | hf
    · exact Or.inl hf
    · have hid := List.mem_map_of_mem (f := Prod.fst) hf
      rw [List.map_append] at hid
      exact Or.inr (hdrawn.place_of_mem hid)
  · intro e he
    obtain ⟨f, hf, heq⟩ := List.mem_map.mp (hfinal.fib e he)
    have hf' := List.mem_append_right early hf
    refine ⟨f.2, heq ▸ hmem f hf', fun hin => ?_⟩
    exact hnew f.1 (List.mem_map_of_mem hf') (heq ▸ List.mem_map_of_mem hin)
  · intro e he
    rw [hseeds, hnone, List.nil_append] at he
    obtain ⟨hfor, hroute⟩ := hopened e he
    refine ⟨hfor.mono (fun _ hn => hn) fun f hf => hmem f ?_, ?_⟩
    · exact List.mem_append_right _ (List.mem_append_right _ hf)
    · rw [hfib]
      exact List.mem_append_right _ hroute
  · intro id hid
    obtain ⟨capacity, hface⟩ := hfinal.localFields id hid
    refine ⟨⟨capacity, hmem _ (List.mem_append_left _ hface)⟩, fun e he heq => ?_⟩
    exact hearly.disjoint hlate hinj (List.mem_map_of_mem hface) (heq ▸ hfinal.fib e he)
  · intro henabled
    obtain ⟨io, hio, hwired⟩ := hon henabled
    refine ⟨io, hrouting _ hio, hlocal.trans hwired.localFields, hwired.handles, fun e he => ?_⟩
    exact (hwired.opened e he).mono (fun _ hn => hn) fun f hf => hgrows.faces ▸
      List.mem_append_left _ hf
  · intro henabled
    rw [hlocal]
    exact hoff henabled

/-- Every bind succeeds, and the status is mounted over one more face. -/
def sampleSurroundings : Surroundings where
  defaultLsaPrefix network := network ++ [.generic (asBytes "nlsr"), .generic (asBytes "LSA")]
  defaultSyncPrefix network := network ++ [.generic (asBytes "nlsr"), .generic (asBytes "sync")]
  binds _ _ _ := true
  mountRoutingStatus name s :=
    (s.1.bump.addFace (sampleNode.allocFaceId s.1.next) (.inProc 64),
      { s.2 with fib := s.2.fib ++ [(name, sampleNode.allocFaceId s.1.next, 0)] })

private theorem sampleSurroundings_mountLaws : MountLaws sampleNode sampleSurroundings where
  mounts name s := by
    refine ⟨[(sampleNode.allocFaceId s.1.next, .inProc 64)],
      [(name, sampleNode.allocFaceId s.1.next, 0)], Grows.addFace sampleNode s.1 _, rfl, rfl, ?_,
      rfl, rfl⟩
    intro e he
    obtain rfl := List.mem_singleton.mp he
    exact ⟨rfl, List.mem_cons_self⟩

/-- One neighbour, whom both protocols speak to. -/
def sampleNeighbour : NeighbourToml := ⟨"/a", "udp4://0.0.0.0:6363", 10⟩

/-- One neighbour of NLSR and of the distance-vector protocol. -/
theorem sampleSurroundings_wired :
    Wired sampleNode sampleSurroundings ⟨true, "/a", "/a", [sampleNeighbour], []⟩
      ⟨true, "/a", "/a", [sampleNeighbour]⟩ ⟨1, [(⟨0⟩, .inProc 64)], [], []⟩
      (installRouting sampleNode sampleSurroundings ⟨true, "/a", "/a", [sampleNeighbour], []⟩
        ⟨true, "/a", "/a", [sampleNeighbour]⟩ ⟨1, [(⟨0⟩, .inProc 64)], [], []⟩) := by
  apply installRouting_wired (fun _ _ => FaceId.mk.inj) sampleSurroundings_mountLaws
  · exact List.nodup_singleton _
  · intro n hn _ hmem
    have hzero : n = 0 := FaceId.mk.inj (List.mem_singleton.mp hmem)
    have hone : 1 ≤ n := hn
    omega

end Stages

end NdnFwd.Routing
