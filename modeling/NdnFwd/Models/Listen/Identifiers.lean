import NdnFwd.Core.Lease
import NdnFwd.Models.Listen.Tasks

/-!
# Face identifiers under any schedule of the listeners

A task that draws an identifier before it accepts may lose it, to an accept error or to the
shutdown. It does not use it twice: whatever the schedule, every identifier drawn goes to a face
added, is lost, or is still held. As long as the engine hands out free identifiers, `add_face`
never replaces an entry of the table, although an identifier that has left it may come back.
-/

namespace NdnFwd.Listen

open List

section Turns

/-- What the turn loses: an identifier held before it, neither used for a face nor kept. -/
def Turn.lost (t : Turn) (p : Phase) : List Nat :=
  p.held.toList.filter fun id => t.face.map Face.id != some id && t.phase.held != some id

/-- What is held before the turn or drawn by it is used, lost, or held afterwards. -/
def Turn.Balanced (t : Turn) (p : Phase) : Prop :=
  p.held.toList ++ t.drawn.toList ~ t.face.toList.map Face.id ++ t.lost p ++ t.phase.held.toList

private theorem balanced_stay (p : Phase) : (Turn.goto p).Balanced p := by
  cases h : p.held <;> simp [Turn.Balanced, Turn.goto, Turn.lost, h]

private theorem balanced_goto {p q : Phase} (h : q.held = none) : (Turn.goto q).Balanced p := by
  cases hp : p.held <;> simp [Turn.Balanced, Turn.goto, Turn.lost, h, hp]

/-- A WebRTC listener uses what it draws at once. -/
theorem balanced_runWebRtcListener (s : Host) (alloc : Nat) (p : Phase) (signal : Signal) :
    (s.runWebRtcListener alloc p signal).Balanced p := by
  unfold Host.runWebRtcListener
  split
  · split_ifs <;> exact balanced_goto rfl
  · split_ifs <;> exact balanced_goto rfl
  · split_ifs
    · exact balanced_goto rfl
    · exact .rfl
    · exact balanced_goto rfl
  · exact balanced_goto rfl
  · exact balanced_stay _

/-- A listener that allocates first holds what it draws until it accepts. -/
theorem balanced_allocAndAccept (s : Host) (alloc : Nat) (p : Phase) (signal : Signal) :
    (s.allocAndAccept alloc p signal).Balanced p := by
  unfold Host.allocAndAccept
  split
  · split_ifs <;> exact balanced_goto rfl
  · split_ifs
    · exact balanced_goto rfl
    · exact .rfl
  · split_ifs
    · exact balanced_goto rfl
    · exact balanced_stay _
  · split_ifs
    · simp [Turn.Balanced, Turn.lost, Phase.held]
    · exact balanced_goto rfl
  · exact balanced_stay _

/-- A WebSocket listener uses what it draws at once. -/
theorem balanced_runWsListener (s : Host) (alloc : Nat) (p : Phase) (signal : Signal) :
    (s.runWsListener alloc p signal).Balanced p := by
  unfold Host.runWsListener
  split
  · split_ifs <;> exact balanced_goto rfl
  · split_ifs <;> exact balanced_goto rfl
  · split_ifs <;> exact balanced_goto rfl
  · split_ifs <;> exact balanced_goto rfl
  · split_ifs
    · exact .rfl
    · exact balanced_goto rfl
  · exact balanced_stay _

/-- A dialled face uses the identifier it was given, or loses it. -/
theorem balanced_provision (p : Phase) (signal : Signal) :
    (provision p signal).Balanced p := by
  unfold provision
  split
  · split_ifs
    · simp [Turn.Balanced, Turn.lost, Phase.held]
    · exact balanced_goto rfl
  · exact balanced_stay _

/-- Every turn of every task balances. -/
theorem balanced_turn (s : Host) (t : Task) (signal : Signal) (alloc : Nat) :
    (s.turn t signal alloc).Balanced t.phase := by
  unfold Host.turn
  split
  · exact balanced_runWebRtcListener s alloc _ _
  · exact balanced_allocAndAccept s alloc _ _
  · exact balanced_allocAndAccept s alloc _ _
  · exact balanced_runWsListener s alloc _ _
  · exact balanced_provision _ _

end Turns

section Run

/-- The identifiers that the tasks hold. -/
def Host.held (s : Host) : List Nat := s.tasks.filterMap Task.held

/-- The identifiers that a step draws. -/
def drawn (v : Host × Event) : List Nat :=
  match v.2 with
  | .launch .dial alloc => [alloc]
  | .task i signal alloc =>
    match v.1.tasks[i]? with
    | some t => (v.1.turn t signal alloc).drawn.toList
    | none => []
  | .elsewhere _ alloc => [alloc]
  | _ => []

/-- The identifiers that a step loses. -/
def lost (v : Host × Event) : List Nat :=
  match v.2 with
  | .task i signal alloc =>
    match v.1.tasks[i]? with
    | some t => (v.1.turn t signal alloc).lost t.phase
    | none => []
  | .elsewhere none alloc => [alloc]
  | _ => []

/-- The identifiers of the faces that a step adds. -/
def added (v : Host × Event) : List Nat := (host.step v.1 v.2).2.map Face.id

/-- Every step balances: the other tasks keep what they hold. -/
theorem balance_step (s : Host) (e : Event) :
    s.held ++ drawn (s, e) ~ added (s, e) ++ lost (s, e) ++ (host.step s e).1.held := by
  cases e with
  | launch role alloc =>
    cases role <;>
      simp [host, Host.launch, Host.held, drawn, added, lost, Task.held, Phase.held,
        filterMap_cons]
  | task i signal alloc =>
    simp only [added, lost, drawn, host]
    cases ht : s.tasks[i]? with
    | none => simp
    | some t =>
      obtain ⟨others, hold, hnew⟩ := Lease.exists_others Task.held ht
        fun t' => { t' with phase := (s.turn t signal alloc).phase }
      have hturn := balanced_turn s t signal alloc
      unfold Turn.Balanced at hturn
      have hheld : (s.play i (s.turn t signal alloc)).held ~
          (s.turn t signal alloc).phase.held.toList ++ others := by
        rw [Host.held, Host.play_tasks]
        exact hnew
      refine (hold.append_right _).trans (.trans ?_ (hheld.append_left _).symm)
      rw [perm_iff_count] at hturn ⊢
      intro a
      have hcount := hturn a
      simp only [count_append, Task.held] at hcount ⊢
      omega
  | elsewhere token alloc =>
    cases token <;> simp [host, Host.held, drawn, added, lost, Host.addFace]
  | _ => simp [host, Host.held, drawn, added, lost, Host.stopFace]

private theorem ids_addFace (s : Host) (face : Face) :
    (s.addFace face).ids <+ s.ids ++ [face.id] := by
  rw [Host.addFace, Host.ids, Host.ids, map_append, map_singleton]
  exact (filter_sublist.map _).append_right _

/-- A step leaves the table with entries it had and those it added. -/
theorem ids_step (s : Host) (e : Event) : (host.step s e).1.ids <+ s.ids ++ added (s, e) := by
  cases e with
  | launch role alloc => cases role <;> exact sublist_append_left _ _
  | task i signal alloc =>
    simp only [host, added]
    split
    next t _ =>
      rw [Host.ids, Host.play_faces]
      cases (s.turn t signal alloc).face with
      | none => exact sublist_append_left _ _
      | some face => exact ids_addFace s face
    · exact sublist_append_left _ _
  | stopFace face =>
    have hids : (s.stopFace face).ids = s.ids := by
      rw [Host.stopFace, Host.ids, map_map]
      apply map_congr_left
      intro f _
      simp only [Function.comp_apply]
      split_ifs <;> rfl
    exact hids ▸ sublist_append_left _ _
  | removeFace face => exact (filter_sublist.map _).trans (sublist_append_left _ _)
  | elsewhere token alloc =>
    cases token with
    | none => exact sublist_append_left _ _
    | some token => exact ids_addFace s ⟨alloc, token⟩
  | shutdown => exact sublist_append_left _ _

/-- The faces that a run adds, by their identifiers. -/
theorem map_id_sent (s : Host) (es : List Event) :
    (host.sent s es).map Face.id = (host.visits s es).flatMap added := by
  induction es generalizing s with
  | nil => rfl
  | cons e es ih => rw [Machine.sent_cons, map_append, ih, Machine.visits, flatMap_cons, added]

/-- The identifiers of the forwarder as leases of the engine's. -/
def leasing : host.Leasing Nat where
  table := Host.ids
  held := Host.held
  draws := drawn
  grants := added
  drops := lost
  balance := balance_step
  table_step := ids_step

end Run

section Reuse

/-- A forwarder that has set up its faces and started no task yet. -/
structure Host.Starting (s : Host) : Prop where
  /-- No task has run. -/
  idle : s.tasks = []
  /-- An identifier has one entry in the table. -/
  nodup : s.ids.Nodup

/-- At first no identifier is held. -/
theorem Host.Starting.held {s : Host} (h : s.Starting) : s.held = [] := by
  rw [Host.held, h.idle, filterMap_nil]

private theorem nodup_drawn (v : Host × Event) : (drawn v).Nodup := by
  unfold drawn
  split
  · exact nodup_singleton _
  · split
    next t _ =>
      cases (v.1.turn t _ _).drawn with
      | none => exact nodup_nil
      | some id => exact nodup_singleton id
    · exact nodup_nil
  · exact nodup_singleton _
  · exact nodup_nil

/-- What is asked of `alloc_id`: throughout a run, it returns no identifier that is in the table or
held by a task. One that a face or a task has given up may come back. -/
def AllocatesFree (s : Host) (es : List Event) : Prop :=
  ∀ v ∈ host.visits s es, ∀ id ∈ drawn v, id ∉ v.1.ids ∧ id ∉ v.1.held

/-- A forwarder with two faces from its config. -/
def sampleHost : Host := ⟨[⟨1, .child false⟩, ⟨2, .child false⟩], [], false⟩

/-- A QUIC listener loses an identifier to a refusal. A WebRTC peer comes in, and a face of the
config goes away, whose identifier the next QUIC peer gets. -/
def sampleEvents : List Event :=
  [.launch .quic 0, .launch .webRtc 0, .task 0 (.bound true) 0, .task 0 (.poll false) 3,
    .task 1 (.poll false) 0, .task 0 (.accept false) 0, .task 1 (.accept true) 4,
    .removeFace 1, .task 0 (.poll false) 1, .task 0 (.accept true) 0]

/-- Under any schedule, and as long as `alloc_id` returns free identifiers, no two faces of the
table or tasks that hold one ever share an identifier, and no addition replaces an entry. -/
theorem faces_never_share_identifier {s : Host} (h : s.Starting) (es : List Event)
    (halloc : AllocatesFree s es) :
    ((host.run s es).ids ++ (host.run s es).held).Nodup ∧
      ∀ v ∈ host.visits s es, (v.1.ids ++ v.1.held).Nodup ∧
        ∀ face ∈ (host.step v.1 v.2).2, face.id ∉ v.1.ids := by
  have hsound : leasing.Sound s := by
    change (s.ids ++ s.held).Nodup
    rw [h.held, append_nil]
    exact h.nodup
  have hfresh : ∀ v ∈ host.visits s es, leasing.Fresh v := fun v hv =>
    ⟨nodup_drawn v, halloc v hv⟩
  refine ⟨hsound.run hfresh, fun v hv => ?_⟩
  have hv' : leasing.Sound v.1 := hsound.visits hfresh v hv
  exact ⟨hv', fun face hface => hv'.not_mem_table (hfresh v hv) (mem_map_of_mem hface)⟩

/-- A host with listeners and dials, one identifier being drawn again. -/
theorem sampleHost_identifiers :
    ((host.run sampleHost sampleEvents).ids ++ (host.run sampleHost sampleEvents).held).Nodup ∧
      ∀ v ∈ host.visits sampleHost sampleEvents, (v.1.ids ++ v.1.held).Nodup ∧
        ∀ face ∈ (host.step v.1 v.2).2, face.id ∉ v.1.ids :=
  faces_never_share_identifier ⟨rfl, by decide⟩ sampleEvents (by unfold AllocatesFree; decide)

end Reuse

section Accounts

/-- What excuses the loss of an identifier. -/
inductive Excused (s : Host) : Event → Prop
  /-- A listener that allocates before it accepts was refused a peer. -/
  | refused {i : Nat} {t : Task} {alloc : Nat} (ht : s.tasks[i]? = some t)
      (hr : t.role = .webTransport ∨ t.role = .quic) : Excused s (.task i (.accept false) alloc)
  /-- Such a listener was cancelled. -/
  | cancelled {i : Nat} {t : Task} {alloc : Nat} (ht : s.tasks[i]? = some t)
      (hr : t.role = .webTransport ∨ t.role = .quic) (hc : s.cancelled = true) :
      Excused s (.task i .token alloc)
  /-- The peer to dial was not reached. -/
  | unreached {i : Nat} {t : Task} {alloc : Nat} (ht : s.tasks[i]? = some t)
      (hr : t.role = .dial) : Excused s (.task i (.dialed false) alloc)
  /-- Another part of the forwarder gave it up. -/
  | elsewhere {alloc : Nat} : Excused s (.elsewhere none alloc)

private theorem lost_stay (p : Phase) : (Turn.goto p).lost p = [] := by
  cases h : p.held <;> simp [Turn.goto, Turn.lost, h]

private theorem lost_of_held_eq_none (t : Turn) {p : Phase} (h : p.held = none) :
    t.lost p = [] := by
  rw [Turn.lost, h]
  rfl

/-- The WebRTC listener loses nothing. -/
theorem lost_runWebRtcListener (s : Host) (alloc : Nat) (p : Phase) (signal : Signal) :
    (s.runWebRtcListener alloc p signal).lost p = [] := by
  unfold Host.runWebRtcListener
  split
  · exact lost_of_held_eq_none _ rfl
  · exact lost_of_held_eq_none _ rfl
  · exact lost_of_held_eq_none _ rfl
  · exact lost_of_held_eq_none _ rfl
  · exact lost_stay _

/-- Nor does the WebSocket listener. -/
theorem lost_runWsListener (s : Host) (alloc : Nat) (p : Phase) (signal : Signal) :
    (s.runWsListener alloc p signal).lost p = [] := by
  unfold Host.runWsListener
  split
  · exact lost_of_held_eq_none _ rfl
  · exact lost_of_held_eq_none _ rfl
  · exact lost_of_held_eq_none _ rfl
  · exact lost_of_held_eq_none _ rfl
  · exact lost_of_held_eq_none _ rfl
  · exact lost_stay _

/-- A listener that allocates first loses an identifier to a refusal or to its token. -/
theorem signal_of_lost_allocAndAccept {s : Host} {alloc : Nat} {p : Phase} {signal : Signal}
    (h : (s.allocAndAccept alloc p signal).lost p ≠ []) :
    signal = .accept false ∨ signal = .token ∧ s.cancelled = true := by
  unfold Host.allocAndAccept at h
  split at h
  · exact absurd (lost_of_held_eq_none _ rfl) h
  · exact absurd (lost_of_held_eq_none _ rfl) h
  next face =>
    split_ifs at h with hc
    · exact Or.inr ⟨rfl, hc⟩
    · exact absurd (lost_stay _) h
  next face ok =>
    cases ok with
    | true => simp [Turn.lost, Phase.held] at h
    | false => exact Or.inl rfl
  · exact absurd (lost_stay _) h

/-- A dialled face loses its identifier only if the peer is not reached. -/
theorem signal_of_lost_provision {p : Phase} {signal : Signal}
    (h : (provision p signal).lost p ≠ []) : signal = .dialed false := by
  unfold provision at h
  split at h
  next face ok =>
    cases ok with
    | true => simp [Turn.lost, Phase.held] at h
    | false => rfl
  · exact absurd (lost_stay _) h

/-- Every loss is excused. -/
theorem excused_of_lost {s : Host} {e : Event} (h : lost (s, e) ≠ []) : Excused s e := by
  cases e with
  | task i signal alloc =>
    simp only [lost] at h
    split at h
    next t ht =>
      unfold Host.turn at h
      split at h
      · exact absurd (lost_runWebRtcListener s alloc _ _) h
      next hr =>
        rcases signal_of_lost_allocAndAccept h with rfl | ⟨rfl, hc⟩
        · exact .refused ht (Or.inl hr)
        · exact .cancelled ht (Or.inl hr) hc
      next hr =>
        rcases signal_of_lost_allocAndAccept h with rfl | ⟨rfl, hc⟩
        · exact .refused ht (Or.inr hr)
        · exact .cancelled ht (Or.inr hr) hc
      · exact absurd (lost_runWsListener s alloc _ _) h
      next hr =>
        obtain rfl := signal_of_lost_provision h
        exact .unreached ht hr
    · exact absurd rfl h
  | elsewhere token alloc =>
    cases token with
    | none => exact .elsewhere
    | some token => exact absurd rfl h
  | _ => exact absurd rfl h

/-- Every identifier drawn in a run goes to a face added, is lost, or is still held: one of these
for each time that it was drawn. Every loss is excused. -/
theorem identifiers_accounted {s : Host} (h : s.tasks = []) (es : List Event) :
    (host.visits s es).flatMap drawn ~ (host.sent s es).map Face.id ++
        (host.visits s es).flatMap lost ++ (host.run s es).held ∧
      ∀ v ∈ host.visits s es, lost v ≠ [] → Excused v.1 v.2 := by
  refine ⟨?_, fun v _ hv => excused_of_lost hv⟩
  have hrun := leasing.balance_run s es
  have hheld : leasing.held s = [] := by
    change s.tasks.filterMap Task.held = []
    rw [h, filterMap_nil]
  rw [hheld, nil_append] at hrun
  rw [map_id_sent]
  exact hrun

/-- Its identifiers are accounted for. -/
theorem sampleHost_accounts :
    (host.visits sampleHost sampleEvents).flatMap drawn ~
        (host.sent sampleHost sampleEvents).map Face.id ++
          (host.visits sampleHost sampleEvents).flatMap lost ++
          (host.run sampleHost sampleEvents).held ∧
      ∀ v ∈ host.visits sampleHost sampleEvents, lost v ≠ [] → Excused v.1 v.2 :=
  identifiers_accounted rfl sampleEvents

end Accounts

end NdnFwd.Listen
