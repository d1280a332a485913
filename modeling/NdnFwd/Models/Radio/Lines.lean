import NdnFwd.Models.Radio.Monitors

/-!
# What the watchers' lines count

On a board with private lines each entry counts the ticks of its own probe, whatever the
other watchers do. Distinct ids carry this over to the registry; and without them there is a
run that leaves fewer entries than watchers.
-/

namespace NdnFwd.Monitors

variable {ws : List Watcher}

section Private

/-- How often the probe of the `i`th watcher has said `ok`, on the private board. -/
def PrivateBoard.ownTicks (ws : List Watcher) (es : List Event) (i : Nat) (ok : Bool) : Nat :=
  ((privateBoard ws).visits PrivateBoard.start es).countP (isOwnTick PrivateBoard.tasks i ok)

/-- A line that tells what its watcher has done. -/
structure Tells (w : Watcher) (task : Task) (oks fails : Nat) (e : MonitorEntry) : Prop where
  kind : e.kind = w.kind
  ok : e.ok = oks
  fail : e.fail = fails
  status : e.status = .stopped ↔ task = .ended

/-- A fresh line has counted nothing. -/
theorem Tells.fresh (w : Watcher) (now : Nat) :
    Tells w .polling 0 0 (.fresh w.id w.kind now) :=
  ⟨rfl, rfl, rfl, by simp [MonitorEntry.fresh]⟩

/-- A tick is counted. -/
theorem Tells.tick {w : Watcher} {oks fails : Nat} {e : MonitorEntry}
    (h : Tells w .polling oks fails e) (ok : Bool) (detail : Bytes) :
    Tells w .polling (oks + if ok = true then 1 else 0) (fails + if ok = false then 1 else 0)
      (e.tick ok detail) := by
  obtain ⟨hkind, hok, hfail, hstatus⟩ := h
  cases ok with
  | false => exact ⟨hkind, hok, congrArg (· + 1) hfail, hstatus⟩
  | true => exact ⟨hkind, congrArg (· + 1) hok, hfail, hstatus⟩

/-- A watcher ends. -/
theorem Tells.stop {w : Watcher} {task : Task} {oks fails : Nat} {e : MonitorEntry}
    (h : Tells w task oks fails e) : Tells w .ended oks fails e.stop :=
  ⟨h.kind, h.ok, h.fail, by simp [MonitorEntry.stop]⟩

/-- The books of a whole board. Watchers that are still to come are idle and have ticked
nothing; the lines of the others tell what they did. -/
structure Kept (ws : List Watcher) (s : PrivateBoard) (ticks : Nat → Bool → Nat) : Prop where
  spawned_le : s.spawned ≤ ws.length
  idle : ∀ i, s.spawned ≤ i → s.tasks i = .idle ∧ ∀ ok, ticks i ok = 0
  tells : ∀ i w, ws[i]? = some w → i < s.spawned →
    ∃ e, s.line i = some e ∧ Tells w (s.tasks i) (ticks i true) (ticks i false) e

variable {s : PrivateBoard} {ticks : Nat → Bool → Nat}

/-- The next watcher is spawned. -/
theorem Kept.spawn (h : Kept ws s ticks) {w : Watcher} (hw : ws[s.spawned]? = some w)
    (now : Nat) : Kept ws
      { s with
        line := Function.update s.line s.spawned (some (.fresh w.id w.kind now))
        spawned := s.spawned + 1
        tasks := Function.update s.tasks s.spawned .polling } ticks where
  spawned_le := (List.getElem?_eq_some_iff.mp hw).1
  idle i hi := by
    dsimp only at hi ⊢
    rw [Function.update_of_ne (by omega)]
    exact h.idle i (by omega)
  tells i w' hw' hi := by
    dsimp only at hi ⊢
    by_cases hnew : i = s.spawned
    · subst hnew
      obtain rfl : w = w' := Option.some.inj (hw.symm.trans hw')
      have hzero := (h.idle s.spawned (Nat.le_refl _)).2
      rw [Function.update_self, Function.update_self, hzero, hzero]
      exact ⟨_, rfl, .fresh w now⟩
    · rw [Function.update_of_ne hnew, Function.update_of_ne hnew]
      exact h.tells i w' hw' (by omega)

/-- A tick of one watcher moves its own count and line and nothing else. -/
theorem Kept.tick (h : Kept ws s ticks) {i : Nat} (hi : s.tasks i = .polling) (ok : Bool)
    (detail : Bytes) : Kept ws
      { s with line := Function.update s.line i ((s.line i).map fun e => e.tick ok detail) }
      fun j b => ticks j b + if i = j ∧ ok = b then 1 else 0 where
  spawned_le := h.spawned_le
  idle j hj := by
    obtain ⟨hidle, hzero⟩ := h.idle j hj
    have hne : i ≠ j := by
      rintro rfl
      rw [hi] at hidle
      cases hidle
    refine ⟨hidle, fun b => ?_⟩
    rw [if_neg fun hand => hne hand.1, hzero]
  tells j w hw hj := by
    obtain ⟨e, hline, htells⟩ := h.tells j w hw hj
    dsimp only
    by_cases hji : j = i
    · subst hji
      rw [hi] at htells ⊢
      rw [Function.update_self, hline]
      simp only [true_and]
      exact ⟨_, rfl, htells.tick ok detail⟩
    · rw [Function.update_of_ne hji]
      have hne : ∀ b, ¬(i = j ∧ ok = b) := fun b hand => hji hand.1.symm
      rw [if_neg (hne true), if_neg (hne false)]
      exact ⟨e, hline, htells⟩

/-- Only a watcher that has been spawned polls. -/
theorem Kept.exists_of_polling (h : Kept ws s ticks) {i : Nat} (hi : s.tasks i = .polling) :
    ∃ w, ws[i]? = some w := by
  have hlt : i < s.spawned := by
    by_contra hge
    rw [(h.idle i (Nat.le_of_not_lt hge)).1] at hi
    cases hi
  exact ⟨_, List.getElem?_eq_getElem (hlt.trans_le h.spawned_le)⟩

/-- A watcher ends. -/
theorem Kept.finish (h : Kept ws s ticks) {i : Nat} (hi : s.tasks i = .polling) : Kept ws
      { s with
        line := Function.update s.line i ((s.line i).map MonitorEntry.stop)
        tasks := Function.update s.tasks i .ended } ticks where
  spawned_le := h.spawned_le
  idle j hj := by
    obtain ⟨hidle, hzero⟩ := h.idle j hj
    have hne : j ≠ i := by
      rintro rfl
      rw [hi] at hidle
      cases hidle
    exact ⟨(Function.update_of_ne hne _ _).trans hidle, hzero⟩
  tells j w hw hj := by
    obtain ⟨e, hline, htells⟩ := h.tells j w hw hj
    dsimp only
    by_cases hji : j = i
    · subst hji
      rw [Function.update_self, Function.update_self, hline]
      exact ⟨_, rfl, htells.stop⟩
    · rw [Function.update_of_ne hji, Function.update_of_ne hji]
      exact ⟨e, hline, htells⟩

private theorem ownTicks_snoc (ws : List Watcher) (es : List Event) (e : Event) (i : Nat)
    (ok : Bool) :
    PrivateBoard.ownTicks ws (es ++ [e]) i ok = PrivateBoard.ownTicks ws es i ok +
      if isOwnTick PrivateBoard.tasks i ok ((privateBoard ws).run .start es, e) then 1 else 0 := by
  rw [PrivateBoard.ownTicks, Machine.visits_append, List.countP_append, Machine.visits,
    Machine.visits, List.countP_singleton, ← PrivateBoard.ownTicks]

/-- Every step of the private board keeps the books. -/
theorem Kept.step (h : Kept ws s ticks) (e : Event) : Kept ws ((privateBoard ws).step s e).1
    fun i ok => ticks i ok + if isOwnTick PrivateBoard.tasks i ok (s, e) then 1 else 0 := by
  cases e with
  | spawn now =>
    simp only [privateBoard, isOwnTick, Bool.false_eq_true, if_false, Nat.add_zero]
    cases hw : ws[s.spawned]? with
    | none => exact h
    | some w => exact h.spawn hw now
  | tick i ok detail =>
    simp only [privateBoard, isOwnTick, decide_eq_true_eq]
    cases hi : s.tasks i with
    | idle | ended =>
      have hown : ∀ j b, ¬(i = j ∧ ok = b ∧ s.tasks j = .polling) := by
        rintro j b ⟨rfl, -, hpolling⟩
        rw [hi] at hpolling
        cases hpolling
      simp only [if_neg (hown _ _), Nat.add_zero]
      cases ws[i]? <;> exact h
    | polling =>
      obtain ⟨w, hw⟩ := h.exists_of_polling hi
      have hown : ∀ j b, (i = j ∧ ok = b ∧ s.tasks j = .polling) ↔ (i = j ∧ ok = b) := by
        intro j b
        constructor
        · exact fun h => ⟨h.1, h.2.1⟩
        · exact fun h => ⟨h.1, h.2, h.1 ▸ hi⟩
      simp only [hw, hown]
      exact h.tick hi ok detail
  | cancel =>
    simp only [privateBoard, isOwnTick, Bool.false_eq_true, if_false, Nat.add_zero]
    exact ⟨h.spawned_le, h.idle, h.tells⟩
  | finish i =>
    simp only [privateBoard, isOwnTick, Bool.false_eq_true, if_false, Nat.add_zero]
    split_ifs
    · cases hw : ws[i]? with
      | none => exact h
      | some w =>
        cases hi : s.tasks i with
        | idle | ended => exact h
        | polling => exact h.finish hi
    · exact h

/-- So does every run. -/
theorem kept_run (ws : List Watcher) (es : List Event) :
    Kept ws ((privateBoard ws).run .start es) (PrivateBoard.ownTicks ws es) := by
  induction es using List.reverseRecOn with
  | nil =>
    refine ⟨Nat.zero_le _, fun _ _ => ⟨rfl, fun _ => rfl⟩, fun _ _ _ hi => ?_⟩
    exact absurd hi (Nat.not_lt_zero _)
  | append_singleton es e ih =>
    rw [Machine.run_snoc, funext₂ (ownTicks_snoc ws es e)]
    exact ih.step e

end Private

section Entries

/-- Only a spawn registers anything. -/
theorem registry_step (ws : List Watcher) (s : Board) {e : Event} (he : ∀ now, e ≠ .spawn now) :
    ((board ws).step s e).1.spawned = s.spawned ∧
      ∀ k, k ∈ ((board ws).step s e).1.registry ↔ k ∈ s.registry := by
  cases e with
  | spawn now => exact absurd rfl (he now)
  | tick i ok detail =>
    dsimp only [board]
    split
    · exact ⟨rfl, fun _ => Table.mem_modify⟩
    · exact ⟨rfl, fun _ => Iff.rfl⟩
  | cancel => exact ⟨rfl, fun _ => Iff.rfl⟩
  | finish i =>
    dsimp only [board]
    split_ifs
    · split
      · exact ⟨rfl, fun _ => Table.mem_modify⟩
      · exact ⟨rfl, fun _ => Iff.rfl⟩
    · exact ⟨rfl, fun _ => Iff.rfl⟩

/-- An id is in the registry if some watcher that has been spawned has it. -/
theorem mem_registry_iff (ws : List Watcher) (es : List Event) (k : Bytes) :
    k ∈ ((board ws).run .start es).registry ↔
      k ∈ (ws.take ((board ws).run .start es).spawned).map Watcher.id := by
  induction es using List.reverseRecOn with
  | nil => exact iff_of_false (AList.notMem_empty k) List.not_mem_nil
  | append_singleton es e ih =>
    rw [Machine.run_snoc]
    generalize (board ws).run .start es = s at ih ⊢
    by_cases hspawn : ∃ now, e = .spawn now
    · obtain ⟨now, rfl⟩ := hspawn
      simp only [board]
      cases hw : ws[s.spawned]? with
      | none => exact ih
      | some w =>
        have htake : ws.take (s.spawned + 1) = ws.take s.spawned ++ [w] := by
          rw [List.take_add_one, hw, Option.toList_some]
        dsimp only [Monitors.start]
        rw [AList.mem_insert, ih, htake, List.map_append, List.mem_append, List.map_singleton,
          List.mem_singleton, or_comm]
    · obtain ⟨hspawned, hkeys⟩ := registry_step ws s (not_exists.mp hspawn)
      rw [hspawned, hkeys]
      exact ih

/-- There are as many entries as watchers have been spawned exactly if these have distinct
ids. -/
theorem size_registry_iff (ws : List Watcher) (es : List Event) :
    Table.size ((board ws).run .start es).registry =
        (ws.take ((board ws).run .start es).spawned).length ↔
      ((ws.take ((board ws).run .start es).spawned).map Watcher.id).Nodup := by
  have hkeys : Table.keySet ((board ws).run .start es).registry =
      ((ws.take ((board ws).run .start es).spawned).map Watcher.id).toFinset := by
    ext k
    rw [Table.mem_keySet, mem_registry_iff, List.mem_toFinset]
  rw [← Table.card_keySet, hkeys, ← List.length_map (f := Watcher.id)]
  exact Multiset.toFinset_card_eq_card_iff_nodup

/-- Face setup that spawns all watchers. -/
theorem spawned_replicate (ws : List Watcher) (n : Nat) (hn : n ≤ ws.length) :
    ((board ws).run .start (List.replicate n (.spawn 0))).spawned = n := by
  induction n with
  | zero => rfl
  | succ n ih =>
    have hprev := ih (by omega)
    have hw : ws[n]? = some ws[n] := List.getElem?_eq_getElem hn
    rw [List.replicate_succ', Machine.run_snoc]
    generalize (board ws).run .start (List.replicate n (.spawn 0)) = s at hprev ⊢
    subst hprev
    simp only [board, hw]

end Entries

/-- Every watcher has an entry to itself in every run exactly if the watchers have distinct
ids. -/
theorem separate_iff_nodup (ws : List Watcher) :
    (∀ es, Separate ws es) ↔ (ws.map Watcher.id).Nodup := by
  constructor
  · intro h
    have hspawned := spawned_replicate ws ws.length (Nat.le_refl _)
    have hsize := (h _).entries hspawned
    have hnodup := (size_registry_iff ws (List.replicate ws.length (.spawn 0))).mp
    rw [hspawned, List.take_length] at hnodup
    exact hnodup hsize
  · intro h es
    have hview := view_run h es
    have hticks : ∀ i ok, ownTicks ws es i ok = PrivateBoard.ownTicks ws es i ok := by
      intro i ok
      rw [PrivateBoard.ownTicks, ← view_start ws,
        (board ws).visits_map (view_step h), List.countP_map]
      rfl
    have hkept := kept_run ws es
    rw [← hview] at hkept
    constructor
    · intro hspawned
      have hsize := (size_registry_iff ws es).mpr
      rw [hspawned, List.take_length] at hsize
      exact hsize h
    · intro i w hw hi
      obtain ⟨e, hline, htells⟩ := hkept.tells i w hw hi
      refine ⟨e, ?_, htells.kind, ?_, ?_, htells.status⟩
      · rw [← hline]
        exact (Table.cells_eq_lookup (idOf_eq hw)).symm
      · exact htells.ok.trans (hticks i true).symm
      · exact htells.fail.trans (hticks i false).symm

end NdnFwd.Monitors
