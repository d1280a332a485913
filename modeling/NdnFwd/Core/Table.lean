import Mathlib.Data.Finset.Card
import Mathlib.Data.List.AList

/-!
# Hash maps as lists of entries

`AList` already excludes duplicate keys. Added here is what a map keyed by a
private sequence number needs: dropping entries by value, removing several keys,
and storing a batch of values under consecutive fresh keys. The values are what
the owner of such a map cares about, so the lemmas follow the list of values.
-/

namespace NdnFwd

/-- A hash map. No key occurs twice; the order of the entries carries no meaning. -/
abbrev Table (κ α : Type*) := AList fun _ : κ => α

/-- The order in which one traversal of a hash map happens to visit its entries. -/
structure IterOrder (α : Type*) where
  /-- The visited entries, rearranged. -/
  arrange : List α → List α
  /-- A traversal visits every entry once. -/
  perm : ∀ xs, (arrange xs).Perm xs

/-- The traversal that visits the entries as they are listed. -/
def IterOrder.listed (α : Type*) : IterOrder α := ⟨id, fun _ => .rfl⟩

namespace Table

variable {κ α : Type*}

/-- The entries as key-value pairs. -/
def pairs (t : Table κ α) : List (κ × α) := t.entries.map fun e => (e.1, e.2)

/-- Number of entries. -/
def size (t : Table κ α) : Nat := t.entries.length

/-- The stored values. -/
def values (t : Table κ α) : List α := t.entries.map fun e => e.2

/-- Keep only the entries that pass the test. -/
def retain (p : κ → α → Bool) (t : Table κ α) : Table κ α where
  entries := t.entries.filter fun e => p e.1 e.2
  nodupKeys := t.nodupKeys.sublist List.filter_sublist

/-- A table has as many values as entries. -/
@[simp] theorem length_values (t : Table κ α) : t.values.length = t.size := by
  simp only [values, size, List.length_map]

/-- The values are those of the pairs. -/
@[simp] theorem values_pairs (t : Table κ α) : t.pairs.map Prod.snd = t.values := by
  simp only [pairs, values, List.map_map, Function.comp_def]

private theorem length_keys (t : Table κ α) : t.keys.length = t.size := List.length_map _

/-- A table has as many pairs as entries. -/
theorem length_pairs (t : Table κ α) : t.pairs.length = t.size := List.length_map _

/-- The key of a pair is in the table. -/
theorem mem_of_mem_pairs {t : Table κ α} {e : κ × α} (h : e ∈ t.pairs) : e.1 ∈ t := by
  obtain ⟨e', he', rfl⟩ := List.mem_map.mp h
  exact List.mem_keys_of_mem he'

/-- A key has one pair. -/
theorem eq_of_mem_pairs {t : Table κ α} {e e' : κ × α} (h : e ∈ t.pairs) (h' : e' ∈ t.pairs)
    (hk : e.1 = e'.1) : e = e' := by
  obtain ⟨d, hd, rfl⟩ := List.mem_map.mp h
  obtain ⟨d', hd', rfl⟩ := List.mem_map.mp h'
  rw [t.nodupKeys.eq_of_fst_eq hd hd' hk]

/-- The keys are those of the pairs. -/
@[simp] theorem map_fst_pairs (t : Table κ α) : t.pairs.map Prod.fst = t.keys := by
  rw [pairs, List.map_map]
  rfl

/-- The value of a pair is among the values. -/
theorem mem_values_of_mem_pairs {t : Table κ α} {e : κ × α} (h : e ∈ t.pairs) :
    e.2 ∈ t.values := by
  rw [← values_pairs]
  exact List.mem_map_of_mem h

/-- A test on values alone acts on the list of values. -/
theorem values_retain (p : α → Bool) (t : Table κ α) :
    (retain (fun _ => p) t).values = t.values.filter p := by
  simp only [values, retain, List.filter_map, Function.comp_def]

/-- Whatever is retained was there. -/
theorem mem_of_mem_retain {p : κ → α → Bool} {t : Table κ α} {k : κ} (h : k ∈ retain p t) :
    k ∈ t :=
  (List.filter_sublist.map _).subset h

variable [DecidableEq κ]

/-- The value of a pair is found under its key. -/
theorem lookup_of_mem_pairs {t : Table κ α} {e : κ × α} (h : e ∈ t.pairs) :
    t.lookup e.1 = some e.2 := by
  obtain ⟨e', he', rfl⟩ := List.mem_map.mp h
  exact AList.mem_lookup_iff.mpr he'

/-- The keys as a finite set. -/
def keySet (t : Table κ α) : Finset κ := t.keys.toFinset

/-- The set of the keys has the keys. -/
theorem mem_keySet {t : Table κ α} {k : κ} : k ∈ keySet t ↔ k ∈ t :=
  List.mem_toFinset.trans AList.mem_keys.symm

/-- There are as many keys as entries. -/
theorem card_keySet (t : Table κ α) : (keySet t).card = t.size := by
  rw [keySet, List.toFinset_card_of_nodup t.keys_nodup, length_keys]

/-- Remove several keys, one after the other. -/
def eraseAll (ks : List κ) (t : Table κ α) : Table κ α := ks.foldl (fun t k => t.erase k) t

/-- An entry is erased. -/
theorem size_erase {t : Table κ α} {k : κ} (h : k ∈ t) : size (t.erase k) = t.size - 1 := by
  rw [← length_keys, ← length_keys, AList.keys_erase, List.length_erase_of_mem h]

/-- Storing under a key in use replaces its value. -/
theorem size_insert_of_mem {t : Table κ α} {k : κ} (h : k ∈ t) (a : α) :
    size (t.insert k a) = t.size := by
  have hpos : 0 < t.keys.length := List.length_pos_of_mem h
  rw [← length_keys, ← length_keys, AList.keys_insert, List.length_cons,
    List.length_erase_of_mem h]
  omega

/-- An entry is added under a new key. -/
theorem size_insert_of_notMem {t : Table κ α} {k : κ} (h : k ∉ t) (a : α) :
    size (t.insert k a) = t.size + 1 := by
  rw [size, AList.entries_insert_of_notMem h, List.length_cons, size]

/-- Change the value under a key in use. -/
def modify (k : κ) (f : α → α) (t : Table κ α) : Table κ α :=
  match t.lookup k with
  | some a => t.insert k (f a)
  | none => t

/-- The entry of the key is changed. -/
@[simp] theorem lookup_modify (t : Table κ α) (k : κ) (f : α → α) :
    (modify k f t).lookup k = (t.lookup k).map f := by
  rw [modify]
  cases h : t.lookup k with
  | none => exact h
  | some a => exact AList.lookup_insert _

/-- Other entries stay. -/
theorem lookup_modify_ne {t : Table κ α} {k k' : κ} (h : k' ≠ k) (f : α → α) :
    (modify k f t).lookup k' = t.lookup k' := by
  rw [modify]
  cases t.lookup k with
  | none => rfl
  | some a => exact AList.lookup_insert_ne h

/-- No key comes or goes. -/
theorem mem_modify {t : Table κ α} {k k' : κ} {f : α → α} : k' ∈ modify k f t ↔ k' ∈ t := by
  rw [modify]
  cases hk : t.lookup k with
  | none => rfl
  | some a =>
    have hin : k ∈ t := AList.lookup_isSome.mp (by rw [hk]; rfl)
    rw [AList.mem_insert]
    constructor
    · rintro (rfl | h)
      · exact hin
      · exact h
    · exact Or.inr

private theorem values_insert {t : Table κ α} {k : κ} (h : k ∉ t) (a : α) :
    values (t.insert k a) = a :: values t := by
  simp only [values, AList.entries_insert_of_notMem h, List.map_cons]

private theorem kerase_eq_filter (k : κ) {es : List (Sigma fun _ : κ => α)} (h : es.NodupKeys) :
    es.kerase k = es.filter fun e => e.1 ≠ k := by
  induction es with
  | nil => rfl
  | cons e es ih =>
    have hn := List.nodupKeys_cons.mp h
    by_cases hk : k = e.1
    · subst hk
      have hrest : es.filter (fun e' => e'.1 ≠ e.1) = es := by
        apply List.filter_eq_self.mpr
        intro e' he'
        have hne : e'.1 ≠ e.1 := fun heq => hn.1 (heq ▸ List.mem_keys_of_mem he')
        simpa using hne
      rw [List.kerase_cons_eq rfl, List.filter_cons, hrest]
      simp
    · rw [List.kerase_cons_ne hk, ih hn.2, List.filter_cons]
      simp [Ne.symm hk]

/-- Removing keys one by one leaves exactly the entries under the other keys. -/
theorem entries_eraseAll (ks : List κ) (t : Table κ α) :
    (eraseAll ks t).entries = t.entries.filter fun e => e.1 ∉ ks := by
  induction ks generalizing t with
  | nil => simp [eraseAll]
  | cons k ks ih =>
    have he : (t.erase k).entries = t.entries.filter fun e => e.1 ≠ k :=
      kerase_eq_filter k t.nodupKeys
    rw [eraseAll, List.foldl_cons, ← eraseAll, ih, he, List.filter_filter]
    apply List.filter_congr
    intro e _
    simp [Bool.and_comm]

/-- Removing the keys of the entries that pass a test keeps the values of the others. -/
theorem values_eraseAll (t : Table κ α) (p : κ × α → Bool) {ks : List κ}
    (h : ks.Perm ((t.pairs.filter p).map Prod.fst)) :
    (eraseAll ks t).values = (t.pairs.filter fun e => !p e).map Prod.snd := by
  have hmem : ∀ e ∈ t.entries, (e.1 ∉ ks ↔ p (e.1, e.2) = false) := by
    intro e he
    rw [h.mem_iff, ← Bool.not_eq_true, not_iff_not]
    simp only [pairs, List.filter_map, List.mem_map, List.mem_filter, Function.comp_def]
    constructor
    · rintro ⟨_, ⟨e', ⟨he', hp⟩, rfl⟩, hk⟩
      have hv : e' = e := t.nodupKeys.eq_of_fst_eq he' he hk
      exact hv ▸ hp
    · intro hp
      exact ⟨_, ⟨e, ⟨he, hp⟩, rfl⟩, rfl⟩
  rw [values, entries_eraseAll, pairs, List.filter_map, List.map_map]
  congr 1
  apply List.filter_congr
  intro e he
  simp only [Function.comp_apply, hmem e he]
  cases p (e.1, e.2) <;> rfl

/-- What is left is under other keys. -/
theorem mem_eraseAll {ks : List κ} {t : Table κ α} {k : κ} :
    k ∈ eraseAll ks t ↔ k ∈ t ∧ k ∉ ks := by
  have hmem : ∀ t : Table κ α, k ∈ t ↔ ∃ e ∈ t.entries, e.1 = k := fun t => List.mem_map
  rw [hmem, hmem, entries_eraseAll]
  constructor
  · rintro ⟨e, he, rfl⟩
    obtain ⟨he, hk⟩ := List.mem_filter.mp he
    exact ⟨⟨e, he, rfl⟩, of_decide_eq_true hk⟩
  · rintro ⟨⟨e, he, rfl⟩, hk⟩
    exact ⟨e, List.mem_filter.mpr ⟨he, decide_eq_true hk⟩, rfl⟩

/-- What is left was there. -/
theorem lookup_of_lookup_eraseAll {ks : List κ} {t : Table κ α} {k : κ} {a : α}
    (h : (eraseAll ks t).lookup k = some a) : t.lookup k = some a := by
  have hin := AList.mem_lookup_iff.mp h
  rw [entries_eraseAll] at hin
  exact AList.mem_lookup_iff.mpr (List.mem_filter.mp hin).1

/-- Whatever key is left was there. -/
theorem mem_of_mem_eraseAll {ks : List κ} {t : Table κ α} {k : κ} (h : k ∈ eraseAll ks t) :
    k ∈ t := (mem_eraseAll.mp h).1

/-- Removing the keys of the entries that pass a test leaves one entry for each of the others. -/
theorem size_eraseAll (t : Table κ α) (p : κ × α → Bool) {ks : List κ}
    (h : ks.Perm ((t.pairs.filter p).map Prod.fst)) :
    (eraseAll ks t).size + ks.length = t.size := by
  have hsplit := List.length_eq_length_filter_add (l := t.pairs) p
  rw [← length_values, values_eraseAll t p h, List.length_map, h.length_eq, List.length_map,
    ← length_pairs, hsplit, Nat.add_comm]

end Table

namespace Table

variable {α : Type*}

/-- Store a batch of values under consecutive keys from `seq` on, counting up. -/
def enlist (seq : Nat) : List α → Table Nat α → Table Nat α × Nat
  | [], t => (t, seq)
  | a :: as, t => enlist (seq + 1) as (t.insert seq a)

/-- Every key lies below the next sequence number. -/
def KeysBelow (seq : Nat) (t : Table Nat α) : Prop := ∀ k ∈ t, k < seq

/-- An empty table has no key. -/
theorem keysBelow_empty (seq : Nat) : KeysBelow seq (∅ : Table Nat α) :=
  fun k hk => absurd hk (AList.notMem_empty k)

/-- The next number is added as a key. -/
theorem KeysBelow.insert {seq : Nat} {t : Table Nat α} (h : KeysBelow seq t) (a : α) :
    KeysBelow (seq + 1) (t.insert seq a) := by
  intro k hk
  rcases (AList.mem_insert t).mp hk with rfl | hk
  · exact Nat.lt_succ_self k
  · exact Nat.lt_succ_of_lt (h k hk)

/-- Fresh keys overwrite nothing: the batch is added to the values already stored. -/
theorem enlist_values {seq : Nat} {t : Table Nat α} (h : KeysBelow seq t) (as : List α) :
    (enlist seq as t).1.values.Perm (as ++ t.values) := by
  induction as generalizing seq t with
  | nil => exact .rfl
  | cons a as ih =>
    have hs := ih (h.insert a)
    rw [values_insert (fun hk => Nat.lt_irrefl _ (h seq hk))] at hs
    exact hs.trans List.perm_middle

/-- The next sequence number stays above every key in use. -/
theorem KeysBelow.enlist {seq : Nat} {t : Table Nat α} (h : KeysBelow seq t) (as : List α) :
    KeysBelow (enlist seq as t).2 (enlist seq as t).1 := by
  induction as generalizing seq t with
  | nil => exact h
  | cons a as ih => exact ih (h.insert a)

end Table

end NdnFwd
