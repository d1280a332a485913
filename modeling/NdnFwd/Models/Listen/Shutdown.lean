import NdnFwd.Models.Listen.Tasks

/-!
# What a cancelled token stops

Every listener adds its faces under children of the forwarder's token, except the WebRTC
listener, which passes the token itself. Stopping one of its faces therefore stops the
forwarder; stopping any other face stops nothing else. After a shutdown the listeners that look
at the token in no particular order may still add faces, but none of them lives.
-/

namespace NdnFwd.Listen

section Stopping

/-- Whether a face is cancelled, by its own token or as a child of the forwarder's. -/
def Host.stopped (s : Host) (face : Face) : Bool :=
  match face.token with
  | .forwarder => s.cancelled
  | .child cancelled => cancelled || s.cancelled
  | .own cancelled => cancelled

/-- The step cancels the token of a face that was added under the forwarder's own. -/
def StopsShared (s : Host) (e : Event) : Prop :=
  ∃ face ∈ s.faces, face.token = .forwarder ∧ e = .stopFace face.id

/-- The forwarder's token is cancelled by a shutdown, or along with such a face. -/
theorem cancelled_step (s : Host) (e : Event) :
    (host.step s e).1.cancelled = true ↔
      s.cancelled = true ∨ e = .shutdown ∨ StopsShared s e := by
  have hsame : (host.step s e).1.cancelled = s.cancelled → e ≠ .shutdown → ¬StopsShared s e →
      ((host.step s e).1.cancelled = true ↔
        s.cancelled = true ∨ e = .shutdown ∨ StopsShared s e) := by
    intro hc hs hf
    rw [hc]
    tauto
  cases e with
  | launch role alloc =>
    refine hsame (by cases role <;> rfl) Event.noConfusion ?_
    rintro ⟨face, -, -, he⟩
    cases he
  | task i signal alloc =>
    refine hsame ?_ Event.noConfusion ?_
    · simp only [host]
      split
      · exact Host.play_cancelled s i _
      · rfl
    · rintro ⟨face, -, -, he⟩
      cases he
  | shutdown => simp [host]
  | stopFace id =>
    simp only [host, Host.stopFace, Bool.or_eq_true, List.any_eq_true, decide_eq_true_eq,
      Bool.and_eq_true, StopsShared, Event.stopFace.injEq]
    constructor
    · rintro (hc | ⟨face, hface, hid, htoken⟩)
      · exact Or.inl hc
      · exact Or.inr (Or.inr ⟨face, hface, htoken, hid.symm⟩)
    · rintro (hc | he | ⟨face, hface, htoken, hid⟩)
      · exact Or.inl hc
      · cases he
      · exact Or.inr ⟨face, hface, hid.symm, htoken⟩
  | removeFace id =>
    refine hsame rfl Event.noConfusion ?_
    rintro ⟨face, -, -, he⟩
    cases he
  | elsewhere token alloc =>
    refine hsame (by cases token <;> rfl) Event.noConfusion ?_
    rintro ⟨face, -, -, he⟩
    cases he

/-- A token never goes back to being the forwarder's. -/
theorem cancel_eq_forwarder {t : Token} : t.cancel = .forwarder ↔ t = .forwarder := by
  cases t <;> simp [Token.cancel]

/-- A face added under the forwarder's token stays in the table as it was added. -/
theorem shared_of_step {s : Host} {e : Event} {face : Face}
    (h : face ∈ (host.step s e).1.faces) (hf : face.token = .forwarder) :
    face ∈ s.faces ∨ face ∈ (host.step s e).2 := by
  have hadd : ∀ (t : Host) (f : Face), face ∈ (t.addFace f).faces → face ∈ t.faces ∨ face = f := by
    intro t f hmem
    rw [Host.addFace, List.mem_append, List.mem_filter, List.mem_singleton] at hmem
    exact hmem.imp_left And.left
  cases e with
  | launch role alloc => cases role <;> exact Or.inl h
  | task i signal alloc =>
    simp only [host] at h ⊢
    split at h
    next t _ =>
      rw [Host.play_faces] at h
      cases hface : (s.turn t signal alloc).face with
      | none =>
        rw [hface] at h
        exact Or.inl h
      | some f =>
        rw [hface] at h
        exact (hadd s f h).imp_right fun he => by rw [he]; exact List.mem_singleton_self f
    · exact Or.inl h
  | shutdown => exact Or.inl h
  | stopFace id =>
    obtain ⟨f, hmem, rfl⟩ := List.mem_map.mp h
    split_ifs at hf ⊢ with hid
    · refine Or.inl ?_
      have hsame : { f with token := f.token.cancel } = f := by
        rw [cancel_eq_forwarder] at hf
        obtain ⟨fid, token⟩ := f
        obtain rfl : token = .forwarder := hf
        rfl
      rw [hsame]
      exact hmem
    · exact Or.inl hmem
  | removeFace id => exact Or.inl (List.mem_filter.mp h).1
  | elsewhere token alloc =>
    cases token with
    | none => exact Or.inl h
    | some token =>
      exact (hadd _ _ h).imp_right fun he => by rw [he]; exact List.mem_singleton_self _

/-- The step accepts a WebRTC peer. -/
def AcceptsWebRtc (s : Host) (e : Event) : Prop :=
  ∃ i t alloc, s.tasks[i]? = some t ∧ t.role = .webRtc ∧ e = .task i (.accept true) alloc ∧
    s.cancelled = false

/-- Which turns add a face, and under which token. -/
theorem face_turn {s : Host} {t : Task} {signal : Signal} {alloc : Nat} {face : Face}
    (h : (s.turn t signal alloc).face = some face) :
    (t.role = .webRtc ∧ signal = .accept true ∧ s.cancelled = false ∧ face.token = .forwarder) ∨
      ((t.role = .webTransport ∨ t.role = .quic ∨ t.role = .webSocket) ∧
        face.token = .child false) ∨
      t.role = .dial ∧ face.token = .own false := by
  have halloc : ∀ {p : Phase}, (s.allocAndAccept alloc p signal).face = some face →
      face.token = .child false := by
    intro p hp
    unfold Host.allocAndAccept at hp
    split at hp
    · cases hp
    · split_ifs at hp
      cases hp
    · cases hp
    · split_ifs at hp <;> cases hp
      rfl
    · cases hp
  unfold Host.turn at h
  split at h
  next hr =>
    unfold Host.runWebRtcListener at h
    split at h
    · split_ifs at h <;> cases h
    · cases h
    next ok =>
      split_ifs at h with hc hok
      · cases h
      · obtain rfl := Option.some.inj h
        refine Or.inl ⟨hr, by rw [hok], by simpa using hc, rfl⟩
      · cases h
    · cases h
    · cases h
  next hr => exact Or.inr (Or.inl ⟨Or.inl hr, halloc h⟩)
  next hr => exact Or.inr (Or.inl ⟨Or.inr (Or.inl hr), halloc h⟩)
  next hr =>
    refine Or.inr (Or.inl ⟨Or.inr (Or.inr hr), ?_⟩)
    unfold Host.runWsListener at h
    split at h
    · cases h
    · cases h
    · cases h
    · cases h
    · split_ifs at h <;> cases h
      rfl
    · cases h
  next hr =>
    refine Or.inr (Or.inr ⟨hr, ?_⟩)
    unfold provision at h
    split at h
    · split_ifs at h <;> cases h
      rfl
    · cases h

/-- Only a WebRTC peer, or another part of the forwarder, is added under the forwarder's token. -/
theorem shared_of_added {s : Host} {e : Event} {face : Face} (h : face ∈ (host.step s e).2)
    (hf : face.token = .forwarder) :
    AcceptsWebRtc s e ∨ ∃ alloc, e = .elsewhere (some .forwarder) alloc := by
  cases e with
  | task i signal alloc =>
    simp only [host] at h
    split at h
    next t ht =>
      obtain ⟨hr, rfl, hc, -⟩ | ⟨-, hchild⟩ | ⟨-, hown⟩ := face_turn (Option.mem_toList.mp h)
      · exact Or.inl ⟨i, t, alloc, ht, hr, rfl, hc⟩
      · rw [hchild] at hf
        cases hf
      · rw [hown] at hf
        cases hf
    · cases h
  | elsewhere token alloc =>
    cases token with
    | none => cases h
    | some token =>
      obtain rfl := List.mem_singleton.mp h
      obtain rfl : token = .forwarder := hf
      exact Or.inr ⟨alloc, rfl⟩
  | launch role alloc => cases h
  | shutdown => cases h
  | stopFace id => cases h
  | removeFace id => cases h

/-- A face under the forwarder's token was there at first, or some step of the run added it. -/
theorem exists_shared {s : Host} (hs : ∀ face ∈ s.faces, face.token ≠ .forwarder)
    {es : List Event} {face : Face} (h : face ∈ (host.run s es).faces)
    (hf : face.token = .forwarder) :
    ∃ v ∈ host.visits s es, face ∈ (host.step v.1 v.2).2 := by
  induction es using List.reverseRecOn with
  | nil => exact absurd hf (hs face h)
  | append_singleton es e ih =>
    rw [Machine.run_snoc] at h
    rcases shared_of_step h hf with hold | hnew
    · obtain ⟨v, hv, hadded⟩ := ih hold
      exact ⟨v, host.mem_visits_of_isPrefix (List.prefix_append es [e]) hv, hadded⟩
    · exact ⟨_, host.mem_visits_snoc s es e, hnew⟩

/-- A forwarder that is not shut down is stopped only along with a face it accepted over WebRTC
(or one that another part of it added under its own token). -/
theorem stopped_by_webRtc_face {s : Host} (hc : s.cancelled = false)
    (hs : ∀ face ∈ s.faces, face.token ≠ .forwarder) (es : List Event)
    (hno : ∀ e ∈ es, e ≠ .shutdown ∧ ∀ alloc, e ≠ .elsewhere (some .forwarder) alloc) :
    (host.run s es).cancelled = true ↔
      ∃ v ∈ host.visits s es, ∃ face ∈ v.1.faces, v.2 = .stopFace face.id ∧
        face.token = .forwarder ∧
        ∃ u ∈ host.visits s es, AcceptsWebRtc u.1 u.2 ∧ face ∈ (host.step u.1 u.2).2 := by
  have hrun := host.run_iff_exists (P := fun s => s.cancelled = true)
    (Q := fun v => v.2 = .shutdown ∨ StopsShared v.1 v.2) cancelled_step s es
  have hevent : ∀ v ∈ host.visits s es, v.2 ∈ es := by
    intro v hv
    obtain ⟨js, ks, rfl, -⟩ := host.exists_of_mem_visits hv
    exact List.mem_append_right js (List.mem_cons_self ..)
  rw [hrun]
  constructor
  · rintro (hstop | ⟨v, hv, hshut | ⟨face, hface, htoken, he⟩⟩)
    · rw [hc] at hstop
      cases hstop
    · exact absurd hshut (hno _ (hevent v hv)).1
    · refine ⟨v, hv, face, hface, he, htoken, ?_⟩
      obtain ⟨js, ks, hjs, hrunjs⟩ := host.exists_of_mem_visits hv
      rw [hrunjs] at hface
      obtain ⟨u, hu, hadded⟩ := exists_shared hs hface htoken
      have hu' : u ∈ host.visits s es :=
        host.mem_visits_of_isPrefix ⟨v.2 :: ks, hjs.symm⟩ hu
      rcases shared_of_added hadded htoken with hacc | ⟨alloc, helse⟩
      · exact ⟨u, hu', hacc, hadded⟩
      · exact absurd helse ((hno _ (hevent u hu')).2 alloc)
  · rintro ⟨v, hv, face, hface, he, htoken, -⟩
    exact Or.inr ⟨v, hv, Or.inr ⟨face, hface, htoken, he⟩⟩

/-- A WebRTC peer connects, and its face is destroyed. -/
def peerStopped : List Event :=
  [.launch .webRtc 0, .task 0 (.poll false) 0, .task 0 (.accept true) 3, .stopFace 3]

/-- A peer of a WebRTC listener stops the forwarder. -/
theorem peerStopped_stops :
    (host.run ⟨[], [], false⟩ peerStopped).cancelled = true ↔
      ∃ v ∈ host.visits ⟨[], [], false⟩ peerStopped, ∃ face ∈ v.1.faces,
        v.2 = .stopFace face.id ∧ face.token = .forwarder ∧
        ∃ u ∈ host.visits ⟨[], [], false⟩ peerStopped,
          AcceptsWebRtc u.1 u.2 ∧ face ∈ (host.step u.1 u.2).2 :=
  stopped_by_webRtc_face rfl (fun _ h => absurd h List.not_mem_nil) peerStopped
    (by simp [peerStopped])

end Stopping

section AfterShutdown

/-- A face that the turn of a listener adds after the shutdown is cancelled from the beginning,
and it is no WebRTC face. -/
theorem stopped_of_turn {s : Host} (hc : s.cancelled = true) {i : Nat} {t : Task}
    {signal : Signal} {alloc : Nat} {face : Face} (h : (s.turn t signal alloc).face = some face) :
    t.role ≠ .webRtc ∧
      (t.role = .dial ∨ (s.play i (s.turn t signal alloc)).stopped face = true) := by
  obtain ⟨-, -, hlive, -⟩ | ⟨hr, htoken⟩ | ⟨hr, -⟩ := face_turn h
  · rw [hc] at hlive
    cases hlive
  · refine ⟨?_, Or.inr ?_⟩
    · rintro hw
      rw [hw] at hr
      rcases hr with hr | hr | hr <;> cases hr
    · simp [Host.stopped, htoken, hc]
  · refine ⟨?_, Or.inl hr⟩
    rw [hr]
    exact Role.noConfusion

/-- After the shutdown no WebRTC peer is accepted any more, and whatever face another listener
still adds is cancelled from the beginning. Only a face that was being dialled may come up. -/
theorem no_live_face_after_shutdown {s : Host} (hc : s.cancelled = true) (es : List Event) :
    ∀ v ∈ host.visits s es, ∀ i signal alloc t, v.2 = .task i signal alloc →
      v.1.tasks[i]? = some t →
      ∀ face ∈ (host.step v.1 v.2).2, t.role ≠ .webRtc ∧
        (t.role = .dial ∨ (host.step v.1 v.2).1.stopped face = true) := by
  intro v hv i signal alloc t he ht face hface
  have hcv : v.1.cancelled = true :=
    host.visits_invariant (fun s e hs => (cancelled_step s e).mpr (Or.inl hs)) hc hv
  obtain ⟨u, e⟩ := v
  obtain rfl : e = .task i signal alloc := he
  simp only [host, ht] at hface ⊢
  exact stopped_of_turn hcv (Option.mem_toList.mp hface)

/-- A WebSocket handshake and a dialled connection both end after the shutdown. -/
def lateFaces : Host := ⟨[], [⟨.webSocket, .handshaking⟩, ⟨.dial, .dialing 4⟩], true⟩

/-- A handshake and a dial end after the shutdown. -/
theorem lateFaces_not_live : lateFaces.cancelled = true ∧
    ∀ v ∈ host.visits lateFaces [.task 0 (.handshake true) 5, .task 1 (.dialed true) 6],
      ∀ i signal alloc t, v.2 = .task i signal alloc → v.1.tasks[i]? = some t →
        ∀ face ∈ (host.step v.1 v.2).2, t.role ≠ .webRtc ∧
          (t.role = .dial ∨ (host.step v.1 v.2).1.stopped face = true) :=
  ⟨rfl, no_live_face_after_shutdown rfl _⟩

end AfterShutdown

end NdnFwd.Listen
