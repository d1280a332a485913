import NdnFwd.Models.Ble.Control

/-!
# How many listeners run, and what the controller knows of them

A listener only ever moves forward, and its token is never revived. So two listeners
overlap only if a `start` spawned one before another had returned, and the controller
is wrong only after a listener has ended by an error of its own.
-/

namespace NdnFwd.Ble

section Steps

/-- The step is a failed bind or a failed accept of this listener. -/
def Listener.fails (l : Listener) : Event → Bool
  | .bound _ false => l.phase = .binding
  | .accept _ false =>
    match l.phase with
    | .serving _ => true
    | _ => false
  | _ => false

/-- What one step does to a listener that was there before. -/
structure Advances (e : Event) (i : Nat) (l l' : Listener) : Prop where
  /-- A listener that has returned stays so. -/
  returned : l.phase = .returned → l'.phase = .returned
  /-- A cancelled token stays so. -/
  cancelled : l.cancelled = true → l'.cancelled = true
  /-- A listener returns because it was cancelled or because it failed. -/
  ended : l'.phase = .returned → l.phase = .returned ∨ l.cancelled = true ∨
    i = e.listener ∧ l.fails e = true

/-- Nothing happens to the listener. -/
theorem Advances.refl (e : Event) (i : Nat) (l : Listener) : Advances e i l l :=
  ⟨id, id, Or.inl⟩

private theorem getElem?_modify_some {α : Type*} {xs : List α} {f : α → α} {i j : Nat} {b : α}
    (h : (xs.modify i f)[j]? = some b) :
    ∃ a, xs[j]? = some a ∧ (i = j ∧ b = f a ∨ i ≠ j ∧ b = a) := by
  rw [List.getElem?_modify] at h
  obtain ⟨a, ha, hb⟩ := Option.map_eq_some_iff.mp h
  refine ⟨a, ha, ?_⟩
  by_cases hij : i = j
  · exact Or.inl ⟨hij, by rw [← hb, if_pos hij]⟩
  · exact Or.inr ⟨hij, by rw [← hb, if_neg hij]⟩

/-- Moving one listener to a phase it may move to advances all listeners. -/
private theorem advances_move {s : Control} {e : Event} {i : Nat} {p : Phase} {l : Listener}
    (hl : s.listeners[i]? = some l) (hnot : l.phase ≠ .returned)
    (hend : p = .returned → l.cancelled = true ∨ i = e.listener ∧ l.fails e = true) {j : Nat}
    {l' : Listener} (h : (s.move i p).listeners[j]? = some l') :
    ∃ l, s.listeners[j]? = some l ∧ Advances e j l l' := by
  obtain ⟨a, ha, ⟨rfl, rfl⟩ | ⟨-, rfl⟩⟩ := getElem?_modify_some h
  · obtain rfl := Option.some.inj (hl.symm.trans ha)
    exact ⟨l, hl, fun hr => absurd hr hnot, id, fun hp => Or.inr (hend hp)⟩
  · exact ⟨l', ha, Advances.refl e j l'⟩

/-- One step of a listener task advances the listeners. -/
private theorem advances_listenerStep {s : Control} {e : Event} {l : Listener}
    (hl : s.listeners[e.listener]? = some l) {j : Nat} {l' : Listener}
    (h : (s.listenerStep l e).listeners[j]? = some l') :
    ∃ l, s.listeners[j]? = some l ∧ Advances e j l l' := by
  have hsame : s.listeners[j]? = some l' → ∃ l, s.listeners[j]? = some l ∧ Advances e j l l' :=
    fun hj => ⟨l', hj, Advances.refl e j l'⟩
  cases e with
  | begin i =>
    simp only [Control.listenerStep] at h
    split_ifs at h with hp
    · refine advances_move hl (by rw [hp]; decide) (fun hr => ?_) h
      cases hr
    · exact hsame h
  | bound i ok =>
    simp only [Control.listenerStep] at h
    split_ifs at h with hp hok
    · refine advances_move hl (by rw [hp]; decide) (fun hr => ?_) h
      cases hr
    · rw [Bool.not_eq_true] at hok
      subst hok
      have hfails : l.fails (.bound i false) = true := by simp [Listener.fails, hp]
      exact advances_move hl (by rw [hp]; decide) (fun _ => Or.inr ⟨rfl, hfails⟩) h
    · exact hsame h
  | wake i =>
    simp only [Control.listenerStep] at h
    split at h
    next face hp =>
      split_ifs at h with hc
      · exact advances_move hl (by rw [hp]; exact Phase.noConfusion) (fun _ => Or.inl hc) h
      · exact hsame h
    · exact hsame h
  | accept i ok =>
    simp only [Control.listenerStep] at h
    split at h
    next face hp =>
      have hnot : l.phase ≠ .returned := by rw [hp]; exact Phase.noConfusion
      split_ifs at h with hc hok
      · exact advances_move hl hnot (fun _ => Or.inl hc) h
      · refine advances_move hl hnot (fun hr => ?_) h
        cases hr
      · rw [Bool.not_eq_true] at hok
        subst hok
        exact advances_move hl hnot (fun _ => Or.inr ⟨rfl, by simp [Listener.fails, hp]⟩) h
    · exact hsame h
  | _ => exact hsame h

/-- After a step, every listener is the one just spawned or an old one that has advanced. -/
theorem step_listener {s : Control} {e : Event} {j : Nat} {l' : Listener}
    (h : (bleControl.step s e).1.listeners[j]? = some l') :
    (Launches s e ∧ j = s.listeners.length ∧ l' = ⟨.spawned, s.parentCancelled⟩) ∨
      ∃ l, s.listeners[j]? = some l ∧ Advances e j l l' := by
  have hsame : s.listeners[j]? = some l' → ∃ l, s.listeners[j]? = some l ∧ Advances e j l l' :=
    fun hj => ⟨l', hj, Advances.refl e j l'⟩
  have htask : (∃ l, s.listeners[e.listener]? = some l ∧
      (s.listenerStep l e).listeners[j]? = some l') ∨ s.listeners[j]? = some l' →
      ∃ l, s.listeners[j]? = some l ∧ Advances e j l l' := by
    rintro (⟨l, hl, h⟩ | h)
    · exact advances_listenerStep hl h
    · exact hsame h
  cases e with
  | start =>
    simp only [bleControl, Control.doStart] at h
    by_cases hlive : s.live = true
    · rw [if_pos hlive] at h
      exact Or.inr (hsame h)
    · rw [if_neg hlive] at h
      rw [Bool.not_eq_true] at hlive
      rw [List.getElem?_append] at h
      split_ifs at h with hj
      · exact Or.inr (hsame h)
      · rw [List.getElem?_singleton] at h
        split_ifs at h with hz
        obtain rfl := Option.some.inj h
        exact Or.inl ⟨⟨rfl, hlive⟩, by omega, rfl⟩
  | stop =>
    simp only [bleControl, Control.stop] at h
    split at h
    · obtain ⟨a, ha, ⟨-, rfl⟩ | ⟨-, rfl⟩⟩ := getElem?_modify_some h
      · exact Or.inr ⟨a, ha, id, fun _ => rfl, Or.inl⟩
      · exact Or.inr (hsame ha)
    · exact Or.inr (hsame h)
  | parentCancel =>
    simp only [bleControl, List.getElem?_map] at h
    obtain ⟨a, ha, rfl⟩ := Option.map_eq_some_iff.mp h
    exact Or.inr ⟨a, ha, id, fun _ => rfl, Or.inl⟩
  | faceRemoved face => exact Or.inr (hsame h)
  | _ =>
    simp only [bleControl] at h
    split at h
    next l hl => exact Or.inr (htask (Or.inl ⟨l, hl, h⟩))
    · exact Or.inr (hsame h)

/-- No step brings a listener back; only a launch adds one. -/
theorem unreturned_of_step {s : Control} {e : Event} {j : Nat}
    (h : (bleControl.step s e).1.Unreturned j) :
    (Launches s e ∧ j = s.listeners.length) ∨ s.Unreturned j := by
  obtain ⟨l', hl', hnot⟩ := h
  obtain ⟨hlaunch, hj, -⟩ | ⟨l, hl, hadv⟩ := step_listener hl'
  · exact Or.inl ⟨hlaunch, hj⟩
  · exact Or.inr ⟨l, hl, fun hr => hnot (hadv.returned hr)⟩

end Steps

section Exclusion

/-- At most one listener binds or holds the GATT server. -/
def AtMostOne (s : Control) : Prop := ∀ i j, s.Active i → s.Active j → i = j

/-- At most one listener has not returned. -/
def Alone (s : Control) : Prop := ∀ i j, s.Unreturned i → s.Unreturned j → i = j

private theorem Alone.atMostOne {s : Control} (h : Alone s) : AtMostOne s :=
  fun i j hi hj => h i j hi.unreturned hj.unreturned

/-- A launch in this state and at this step finds every earlier listener returned. -/
def LaunchesAlone (s : Control) (e : Event) : Prop :=
  Launches s e → ∀ i, ¬s.Unreturned i

/-- One launch at a time leaves at most one listener. -/
theorem Alone.step {s : Control} (h : Alone s) {e : Event} (he : LaunchesAlone s e) :
    Alone (bleControl.step s e).1 := by
  intro i j hi hj
  obtain ⟨hlaunch, rfl⟩ | hi := unreturned_of_step hi
  · obtain ⟨-, rfl⟩ | hj := unreturned_of_step hj
    · rfl
    · exact absurd hj (he hlaunch j)
  · obtain ⟨hlaunch, rfl⟩ | hj := unreturned_of_step hj
    · exact absurd hi (he hlaunch i)
    · exact h i j hi hj

private theorem alone_run {s : Control} (h : Alone s) {es : List Event}
    (hes : ∀ v ∈ bleControl.visits s es, LaunchesAlone v.1 v.2) : Alone (bleControl.run s es) :=
  bleControl.run_of_visits (fun _ _ hs he => hs.step he) h hes

/-- Task steps launch nothing. -/
theorem launchesAlone_of_ofTask {e : Event} (h : e.ofTask = true) (s : Control) :
    LaunchesAlone s e := by
  rintro ⟨rfl, -⟩
  cases h

/-- A listener that has not returned can become active while the others stay as they are. -/
theorem exists_active {s : Control} {i : Nat} (h : s.Unreturned i) :
    ∃ es : List Event, (∀ e ∈ es, e.ofTask = true) ∧ (bleControl.run s es).Active i ∧
      ∀ j, j ≠ i → (bleControl.run s es).listeners[j]? = s.listeners[j]? := by
  obtain ⟨l, hl, hnot⟩ := h
  cases hp : l.phase with
  | spawned =>
    refine ⟨[.begin i], by simp [Event.ofTask], ⟨{ l with phase := .binding }, ?_, rfl⟩,
      fun j hj => ?_⟩
    · simp [bleControl, Event.listener, hl, Control.listenerStep, hp, Control.move]
    · simp [bleControl, Event.listener, hl, Control.listenerStep, hp, Control.move,
        Ne.symm hj]
  | binding => exact ⟨[], by simp, ⟨l, hl, by rw [hp]; rfl⟩, fun _ _ => rfl⟩
  | serving face => exact ⟨[], by simp, ⟨l, hl, by rw [hp]; rfl⟩, fun _ _ => rfl⟩
  | returned => exact absurd hp hnot

/-- Only the listener itself matters. -/
theorem Control.Unreturned.congr {s t : Control} {i : Nat} (h : s.Unreturned i)
    (he : s.listeners[i]? = t.listeners[i]?) : t.Unreturned i := by
  obtain ⟨l, hl, hnot⟩ := h
  exact ⟨l, he ▸ hl, hnot⟩

/-- Only the listener itself matters. -/
theorem Control.Active.congr {s t : Control} {i : Nat} (h : s.Active i)
    (he : s.listeners[i]? = t.listeners[i]?) : t.Active i := by
  obtain ⟨l, hl, ha⟩ := h
  exact ⟨l, he ▸ hl, ha⟩

/-- A launch appends a listener and leaves the others alone. -/
theorem listeners_of_launch {s : Control} (hlive : s.live = false) :
    (bleControl.step s .start).1.listeners =
      s.listeners ++ [⟨.spawned, s.parentCancelled⟩] := by
  simp [bleControl, Control.doStart, hlive]

private theorem unreturned_launched {s : Control} (hlive : s.live = false) :
    (bleControl.step s .start).1.Unreturned s.listeners.length :=
  ⟨_, by rw [listeners_of_launch hlive, List.getElem?_concat_length], Phase.noConfusion⟩

private theorem unreturned_of_launch {s : Control} (hlive : s.live = false) {i : Nat}
    (hi : s.Unreturned i) :
    (bleControl.step s .start).1.Unreturned i := by
  obtain ⟨l, hl, hnot⟩ := hi
  have hlt := (List.getElem?_eq_some_iff.mp hl).1
  exact ⟨l, by rw [listeners_of_launch hlive, List.getElem?_append_left hlt, hl], hnot⟩

/-- In every state of the run, and in every state the listeners can reach from there on their
own, at most one listener binds or holds the GATT server. -/
def Exclusive (nextFace : Nat) (es : List Event) : Prop :=
  ∀ es', es' <+: es → ∀ ts : List Event, (∀ e ∈ ts, e.ofTask = true) →
    AtMostOne (bleControl.run (Control.new nextFace) (es' ++ ts))

/-- Exclusion holds in exactly the runs in which every `start` that launches a listener finds
the earlier ones returned. -/
theorem exclusive_iff (nextFace : Nat) (es : List Event) :
    Exclusive nextFace es ↔
      ∀ v ∈ bleControl.visits (Control.new nextFace) es, LaunchesAlone v.1 v.2 := by
  have hnew : Alone (Control.new nextFace) := by
    rintro i j ⟨l, hl, -⟩
    cases hl
  constructor
  · intro hex v hv hlaunch i hi
    obtain ⟨before, hpre, hs⟩ := bleControl.exists_prefix_of_mem_visits hv
    obtain ⟨s, e⟩ := v
    obtain ⟨rfl, hlive⟩ := hlaunch
    have hlt : i < s.listeners.length := by
      obtain ⟨l, hl, -⟩ := hi
      exact (List.getElem?_eq_some_iff.mp hl).1
    -- the new listener is driven to bind, then the old one to bind or hold the server
    obtain ⟨ts, hts, hact, hkeep⟩ := exists_active (unreturned_launched hlive)
    obtain ⟨us, hus, hact', hkeep'⟩ := exists_active
      ((unreturned_of_launch hlive hi).congr (hkeep i (Nat.ne_of_lt hlt)).symm)
    have hboth := hex (before ++ [.start]) hpre (ts ++ us) ?_
    · rw [Machine.run_append, Machine.run_append, Machine.run_snoc, ← hs] at hboth
      have hn := hact.congr (hkeep' s.listeners.length (Nat.ne_of_gt hlt)).symm
      exact absurd (hboth i s.listeners.length hact' hn) (Nat.ne_of_lt hlt)
    · intro e he
      exact (List.mem_append.mp he).elim (hts e) (hus e)
  · intro hes es' hpre ts hts
    refine (alone_run hnew fun v hv => ?_).atMostOne
    rw [Machine.visits_append] at hv
    rcases List.mem_append.mp hv with hv | hv
    · exact hes v (bleControl.mem_visits_of_isPrefix hpre hv)
    · obtain ⟨js, ks, rfl, -⟩ := bleControl.exists_of_mem_visits hv
      exact launchesAlone_of_ofTask (hts v.2 (List.mem_append_right js (List.mem_cons_self ..))) v.1

/-- A `stop` followed by a `start`: the second listener binds while the first still serves. -/
theorem not_exclusive_restart :
    ¬Exclusive 0 [.start, .begin 0, .bound 0 true, .stop, .start, .begin 1] := by
  intro h
  have hboth := h _ (List.prefix_refl _) [] (fun e he => by cases he)
  have hfirst : (bleControl.run (Control.new 0) [.start, .begin 0, .bound 0 true, .stop, .start,
      .begin 1]).Active 0 := ⟨⟨.serving 0, true⟩, rfl, rfl⟩
  have hsecond : (bleControl.run (Control.new 0) [.start, .begin 0, .bound 0 true, .stop, .start,
      .begin 1]).Active 1 := ⟨⟨.binding, false⟩, rfl, rfl⟩
  exact absurd (hboth 0 1 hfirst hsecond) (by decide)

end Exclusion

section Status

/-- At this step a listener whose token is live ends by a failed bind or a failed accept. -/
def FailsLive (s : Control) (e : Event) : Prop :=
  ∃ l ∈ s.listeners[e.listener]?, l.cancelled = false ∧ l.fails e = true

instance (s : Control) (e : Event) : Decidable (FailsLive s e) :=
  inferInstanceAs (Decidable (∃ l ∈ _, _))

/-- While the stored token is live, its listener has not returned. -/
def Tracked (s : Control) : Prop :=
  ∀ i l, s.running = some i → s.listeners[i]? = some l → l.cancelled = false → l.phase ≠ .returned

/-- A live token belongs to a listener on record. -/
theorem live_iff {s : Control} :
    s.live = true ↔ ∃ i l, s.running = some i ∧ s.listeners[i]? = some l ∧ l.cancelled = false := by
  unfold Control.live
  cases s.running with
  | none => simp
  | some i => cases h : s.listeners[i]? <;> simp [h]

private theorem Tracked.exists_unreturned {s : Control} (h : Tracked s) (hlive : s.live = true) :
    ∃ i, s.Unreturned i := by
  obtain ⟨i, l, hr, hl, hc⟩ := live_iff.mp hlive
  exact ⟨i, l, hl, h i l hr hl hc⟩

/-- A listener never touches the stored token. -/
theorem running_listenerStep (s : Control) (l : Listener) (e : Event) :
    (s.listenerStep l e).running = s.running := by
  cases e with
  | begin i =>
    simp only [Control.listenerStep]
    split_ifs <;> rfl
  | bound i ok =>
    simp only [Control.listenerStep]
    split_ifs <;> rfl
  | wake i =>
    simp only [Control.listenerStep]
    split
    · split_ifs <;> rfl
    · rfl
  | accept i ok =>
    simp only [Control.listenerStep]
    split
    · split_ifs <;> rfl
    · rfl
  | _ => rfl

/-- Only a launch stores a token. -/
theorem running_of_step {s : Control} {e : Event} {i : Nat}
    (h : (bleControl.step s e).1.running = some i) :
    (Launches s e ∧ i = s.listeners.length) ∨ s.running = some i := by
  cases e with
  | start =>
    simp only [bleControl, Control.doStart] at h
    split_ifs at h with hlive
    · exact Or.inr h
    · rw [Bool.not_eq_true] at hlive
      exact Or.inl ⟨⟨rfl, hlive⟩, (Option.some.inj h).symm⟩
  | stop =>
    simp only [bleControl, Control.stop] at h
    split at h
    · cases h
    · exact Or.inr h
  | parentCancel => exact Or.inr h
  | faceRemoved face => exact Or.inr h
  | _ =>
    simp only [bleControl] at h
    split at h
    next l _ => exact Or.inr ((running_listenerStep s l _).symm.trans h)
    · exact Or.inr h

/-- A step that does not fail a live listener. -/
theorem Tracked.step {s : Control} (h : Tracked s) {e : Event} (he : ¬FailsLive s e) :
    Tracked (bleControl.step s e).1 := by
  intro i l' hr hl' hc hret
  obtain ⟨-, -, rfl⟩ | ⟨l, hl, hadv⟩ := step_listener hl'
  · cases hret
  · have hlc : l.cancelled = false := by
      rw [← Bool.not_eq_true]
      intro ht
      rw [hadv.cancelled ht] at hc
      cases hc
    obtain hold | hcan | ⟨rfl, hfail⟩ := hadv.ended hret
    · obtain ⟨-, rfl⟩ | hrun := running_of_step hr
      · rw [List.getElem?_eq_none (Nat.le_refl _)] at hl
        cases hl
      · exact h i l hrun hl hlc hold
    · rw [hlc] at hcan
      cases hcan
    · exact he ⟨l, hl, hlc, hfail⟩

private theorem tracked_run {s : Control} (h : Tracked s) {es : List Event}
    (hes : ∀ v ∈ bleControl.visits s es, ¬FailsLive v.1 v.2) : Tracked (bleControl.run s es) :=
  bleControl.run_of_visits (fun _ _ hs he => hs.step he) h hes

/-- Throughout the run, `status` reports advertising only while a listener has not returned,
and whenever `start` returns there is such a listener. -/
def Truthful (nextFace : Nat) (es : List Event) : Prop :=
  (∀ es', es' <+: es → (bleControl.run (Control.new nextFace) es').status.advertising = true →
      ∃ i, (bleControl.run (Control.new nextFace) es').Unreturned i) ∧
    ∀ es', es' ++ [.start] <+: es →
      ∃ i, (bleControl.run (Control.new nextFace) (es' ++ [.start])).Unreturned i

/-- The controller is right in every run in which no listener with a live token ends by an
error of its own. -/
theorem truthful_of_no_live_failure (nextFace : Nat) (es : List Event)
    (h : ∀ v ∈ bleControl.visits (Control.new nextFace) es, ¬FailsLive v.1 v.2) :
    Truthful nextFace es := by
  have hnew : Tracked (Control.new nextFace) := fun i l hr => by cases hr
  have hrun : ∀ es', es' <+: es → Tracked (bleControl.run (Control.new nextFace) es') :=
    fun es' hpre => tracked_run hnew fun v hv => h v (bleControl.mem_visits_of_isPrefix hpre hv)
  refine ⟨fun es' hpre hadv => (hrun es' hpre).exists_unreturned hadv, fun es' hpre => ?_⟩
  have htracked := hrun es' ((List.prefix_append es' [.start]).trans hpre)
  rw [Machine.run_snoc]
  generalize bleControl.run (Control.new nextFace) es' = s at htracked
  by_cases hlive : s.live = true
  · have hsame : (bleControl.step s .start).1 = s := by
      simp only [bleControl, Control.doStart, if_pos hlive]
    rw [hsame]
    exact htracked.exists_unreturned hlive
  · rw [Bool.not_eq_true] at hlive
    exact ⟨_, unreturned_launched hlive⟩

/-- A listener that is stopped while it serves may end with an error. -/
theorem truthful_stopped_listener :
    Truthful 0 [.start, .begin 0, .bound 0 true, .stop, .accept 0 false] :=
  truthful_of_no_live_failure 0 _ (by decide)

/-- After a failed bind the controller still reports advertising, and `start` does nothing. -/
theorem not_truthful_failed_bind :
    ¬Truthful 0 [.start, .begin 0, .bound 0 false, .start] := by
  rintro ⟨-, h⟩
  obtain ⟨i, l, hl, hnot⟩ := h [.start, .begin 0, .bound 0 false] (List.prefix_refl _)
  have hall : (bleControl.run (Control.new 0)
      ([.start, .begin 0, .bound 0 false] ++ [.start])).listeners = [⟨.returned, false⟩] := rfl
  rw [hall, List.getElem?_singleton] at hl
  split_ifs at hl
  obtain rfl := Option.some.inj hl
  exact hnot rfl

end Status

end NdnFwd.Ble
