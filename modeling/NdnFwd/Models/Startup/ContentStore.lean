import NdnFwd.Models.Startup.Config

/-!
# The content store that is installed

`main` tells the engine a capacity in bytes, and hands it a store that `build_cs` has made. The two
are computed apart. Only the first falls back to the capacity of the engine section, and only the
second is divided among shards.
-/

namespace NdnFwd.ContentStore

/-- What `build_cs` reads of the section `[cs]`. -/
structure CsConfig where
  variant : String
  capacityMb : Nat
  shards : Option Nat
  deriving DecidableEq, Repr

/-- What `main` reads of the section `[engine]` for the content store. -/
structure EngineSection where
  csCapacityMb : Nat
  deriving DecidableEq, Repr

/-- The stores, each LRU shard with its capacity in bytes. -/
inductive Store
  | null
  | lru (capBytes : Nat)
  | sharded (shards : List Nat)
  deriving DecidableEq, Repr

/-- The capacities of its LRU shards. -/
def Store.lruShards : Store → List Nat
  | null => []
  | lru capBytes => [capBytes]
  | sharded shards => shards

section Build

variable (checks : Bool) (cs : CsConfig) (engine : EngineSection)

/-- `mb * 1024 * 1024` on `usize`; `none` is an overflow panic. -/
def mbBytes (mb : Nat) : Option Nat := Word.product 64 checks mb [1024, 1024]

/-- `cs_cap_mb`. -/
def csCapMb : Nat := if cs.capacityMb ≠ 0 then cs.capacityMb else engine.csCapacityMb

/-- `cs_capacity_bytes` of the engine's configuration. -/
def csCapacityBytes : Option Nat := mbBytes checks (csCapMb cs engine)

/-- `build_cs`. -/
def buildCs : Option Store := do
  let cap ← mbBytes checks cs.capacityMb
  if cs.variant = "null" then some .null
  else if cs.variant = "sharded-lru" then
    let n := cs.shards.getD 4
    some (.sharded (List.replicate n (cap / n)))
  else some (.lru cap)

/-- How many LRU shards are asked for, in a variant that caches. -/
def CsConfig.shardCount : Nat := if cs.variant = "sharded-lru" then cs.shards.getD 4 else 1

/-- The store is as large as the engine is told, but for what the division leaves over. -/
structure AsLargeAs (store : Store) (bytes : Nat) : Prop where
  nonempty : store.lruShards ≠ []
  sum_le : store.lruShards.sum ≤ bytes
  lt_sum_add : bytes < store.lruShards.sum + store.lruShards.length

/-- So is the one that is installed. -/
def InstallsAsTold : Prop :=
  ∃ store bytes, buildCs checks cs = some store ∧ csCapacityBytes checks cs engine = some bytes ∧
    AsLargeAs store bytes

end Build

section Size

variable {checks : Bool} {cs : CsConfig}

private theorem mbBytes_of_lt (checks : Bool) {mb : Nat} (h : mb * 1024 * 1024 < 2 ^ 64) :
    mbBytes checks mb = some (mb * 1024 * 1024) := by
  rw [Nat.mul_assoc] at h ⊢
  exact Word.product_of_lt checks (by decide) h

/-- A store that caches consists of equal shards. -/
theorem buildCs_eq {cap : Nat} (hcaches : cs.variant ≠ "null")
    (hcap : mbBytes checks cs.capacityMb = some cap) :
    ∃ store, buildCs checks cs = some store ∧
      store.lruShards = List.replicate cs.shardCount (cap / cs.shardCount) := by
  rw [buildCs, hcap, Option.bind_eq_bind, Option.bind_some, if_neg hcaches, CsConfig.shardCount]
  split_ifs
  · exact ⟨_, rfl, rfl⟩
  · exact ⟨_, rfl, by simp [Store.lruShards]⟩

/-- Equal shards leave over less than one byte for each. -/
theorem asLargeAs_iff {store : Store} {n cap bytes : Nat}
    (h : store.lruShards = List.replicate n (cap / n)) :
    AsLargeAs store bytes ↔ 0 < n ∧ n * (cap / n) ≤ bytes ∧ bytes < n * (cap / n) + n := by
  have hsum : store.lruShards.sum = n * (cap / n) := by
    rw [h, List.sum_replicate_nat]
  have hlen : store.lruShards.length = n := by rw [h, List.length_replicate]
  constructor
  · rintro ⟨hne, hle, hlt⟩
    rw [hsum] at hle hlt
    rw [hlen] at hlt
    exact ⟨hlen ▸ List.length_pos_iff.mpr hne, hle, hlt⟩
  · rintro ⟨hpos, hle, hlt⟩
    refine ⟨?_, by rwa [hsum], by rwa [hsum, hlen]⟩
    rw [← List.length_pos_iff, hlen]
    exact hpos

/-- The installed store is as large as told exactly if there is a shard at all, and the capacity is
not the engine's, unless that one is too small to give each shard a byte. -/
theorem installsAsTold_iff (checks : Bool) (cs : CsConfig) (engine : EngineSection)
    (hcaches : cs.variant ≠ "null") (hfits : csCapMb cs engine * 1024 * 1024 < 2 ^ 64) :
    InstallsAsTold checks cs engine ↔ 0 < cs.shardCount ∧
      (cs.capacityMb ≠ 0 ∨ engine.csCapacityMb * 1024 * 1024 < cs.shardCount) := by
  have hbytes : csCapacityBytes checks cs engine = some (csCapMb cs engine * 1024 * 1024) :=
    mbBytes_of_lt checks hfits
  have hcap : mbBytes checks cs.capacityMb = some (cs.capacityMb * 1024 * 1024) := by
    apply mbBytes_of_lt
    by_cases hmb : cs.capacityMb = 0
    · rw [hmb]
      decide
    · rwa [csCapMb, if_pos hmb] at hfits
  obtain ⟨store, hstore, hshards⟩ := buildCs_eq hcaches hcap
  have hinstalls : InstallsAsTold checks cs engine ↔
      AsLargeAs store (csCapMb cs engine * 1024 * 1024) := by
    constructor
    · rintro ⟨store', bytes, hstore', hbytes', hlarge⟩
      rw [hstore] at hstore'
      rw [hbytes] at hbytes'
      obtain rfl := Option.some.inj hstore'
      obtain rfl := Option.some.inj hbytes'
      exact hlarge
    · exact fun hlarge => ⟨store, _, hstore, hbytes, hlarge⟩
  rw [hinstalls, asLargeAs_iff hshards]
  refine and_congr_right fun hpos => ?_
  by_cases hmb : cs.capacityMb = 0
  · -- the store has no byte
    have hnone : cs.shardCount * (0 * 1024 * 1024 / cs.shardCount) = 0 := by simp
    rw [csCapMb, if_neg (not_not.mpr hmb), hmb, hnone, Nat.zero_add,
      and_iff_right (Nat.zero_le _)]
    exact (or_iff_right (not_not.mpr rfl)).symm
  · rw [csCapMb, if_pos hmb]
    refine iff_of_true ⟨Nat.mul_div_le _ _, ?_⟩ (Or.inl hmb)
    exact Nat.lt_mul_div_succ _ hpos

/-- The default configuration. -/
def defaultCs : CsConfig := ⟨"lru", 64, none⟩

/-- The defaults are installed as they are told. -/
theorem defaultCs_installsAsTold : InstallsAsTold true defaultCs ⟨64⟩ :=
  (installsAsTold_iff true defaultCs ⟨64⟩ (by decide) (by decide)).mpr ⟨by decide, by decide⟩

/-- A capacity of zero, with the engine's to fall back on: the store that is installed has none. -/
theorem zeroCs_not_installsAsTold :
    csCapacityBytes true ⟨"lru", 0, none⟩ ⟨64⟩ = some 67108864 ∧
      buildCs true ⟨"lru", 0, none⟩ = some (.lru 0) ∧
        ¬InstallsAsTold true ⟨"lru", 0, none⟩ ⟨64⟩ := by
  refine ⟨by decide, by decide, ?_⟩
  rintro ⟨store, bytes, hstore, hbytes, hlarge⟩
  cases hstore
  cases hbytes
  exact absurd hlarge.lt_sum_add (by decide)

end Size

end NdnFwd.ContentStore
