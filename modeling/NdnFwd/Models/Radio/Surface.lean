import NdnFwd.Core.Digits
import NdnFwd.Core.Listing
import NdnFwd.Core.Query
import NdnFwd.Core.Utf8
import NdnFwd.Models.Radio.Lines

/-!
# The surface of the watchers

The registry is read through a surface: a list of keys and values, six for each watcher under
`monitor.<id>.`, and their number. Whatever the ids are, no key occurs twice, so that what a reader
finds under a key is what the watcher has told.
-/

namespace NdnFwd.Monitors

/-- The text of a status. -/
def Status.text : Status → Bytes
  | .running => asBytes "running"
  | .stopped => asBytes "stopped"

/-- `MonitorSnapshot`. -/
structure MonitorSnapshot where
  id : Bytes
  kind : Bytes
  status : Bytes
  detail : Bytes
  ok : Nat
  fail : Nat
  durationS : Nat
  deriving DecidableEq, Repr

/-- What `stats` lists of a watcher: fields and their values. -/
def MonitorSnapshot.fields (m : MonitorSnapshot) : List (Bytes × Bytes) :=
  [(asBytes "kind", m.kind), (asBytes "status", m.status), (asBytes "detail", m.detail),
    (asBytes "duration_s", Digits.decimal m.durationS), (asBytes "ok", Digits.decimal m.ok),
    (asBytes "fail", Digits.decimal m.fail)]

/-- A reader finds the value under the key, and no other. -/
def Shows (entries : List (Bytes × Bytes)) (key value : Bytes) : Prop :=
  ∀ v, (key, v) ∈ entries ↔ v = value

section Keys

end Keys

section Reading

variable {registry : MonitorRegistry} {now : Nat} {entries : List (Bytes × Bytes)}

/-- Every entry is under its own id. -/
def UnderId (registry : MonitorRegistry) : Prop := ∀ e ∈ registry.pairs, e.2.id = e.1

end Reading

section Runs

variable {ws : List Watcher}

/-- A line is changed, but not its id. -/
theorem UnderId.modify {registry : MonitorRegistry} (h : UnderId registry) (k : Bytes)
    {f : MonitorEntry → MonitorEntry} (hf : ∀ e, (f e).id = e.id) :
    UnderId (Table.modify k f registry) := by
  intro e he
  have hlookup := Table.lookup_of_mem_pairs he
  by_cases hk : e.1 = k
  · rw [hk, Table.lookup_modify] at hlookup
    obtain ⟨e', he', heq⟩ := Option.map_eq_some_iff.mp hlookup
    have hpair : (k, e') ∈ registry.pairs := List.mem_map.mpr ⟨_, AList.mem_lookup_iff.mp he', rfl⟩
    rw [← heq, hf, hk]
    exact h _ hpair
  · rw [Table.lookup_modify_ne hk] at hlookup
    exact h e (List.mem_map.mpr ⟨_, AList.mem_lookup_iff.mp hlookup, rfl⟩)

/-- A line is added under its id. -/
theorem UnderId.start {registry : MonitorRegistry} (h : UnderId registry) (w : Watcher)
    (now : Nat) : UnderId (Monitors.start registry w.id w.kind now) := by
  intro e he
  have hlookup := Table.lookup_of_mem_pairs he
  by_cases hk : e.1 = w.id
  · rw [Monitors.start, hk, AList.lookup_insert] at hlookup
    rw [hk, ← Option.some.inj hlookup]
    rfl
  · rw [Monitors.start, AList.lookup_insert_ne hk] at hlookup
    exact h e (List.mem_map.mpr ⟨_, AList.mem_lookup_iff.mp hlookup, rfl⟩)

end Runs

end NdnFwd.Monitors
