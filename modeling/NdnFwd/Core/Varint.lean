import NdnFwd.Core.Word

/-!
# Base-128 varints

An integer as groups of seven bits, lowest group first, with the high bit set on
every byte but the last. The reader takes any number of continuation bytes, so it
also accepts padded encodings; the encoder's output is the shortest of them all.
-/

namespace NdnFwd

namespace Varint

/-- The shortest base-128 encoding. -/
def encode (n : Nat) : Bytes :=
  if n < 128 then [UInt8.ofNat n] else UInt8.ofNat (n % 128 + 128) :: encode (n / 128)
termination_by n

/-- The integer at the front of a byte string, and the bytes after it. -/
def read : Bytes → Option (Nat × Bytes)
  | [] => none
  | b :: bs =>
    if b.toNat < 128 then some (b.toNat, bs)
    else (read bs).map fun r => (b.toNat % 128 + 128 * r.1, r.2)

/-- Seven bits take one byte. -/
theorem encode_of_lt {n : Nat} (h : n < 128) : encode n = [UInt8.ofNat n] := by
  rw [encode, if_pos h]

/-- More begin with a byte of continuation. -/
theorem encode_of_le {n : Nat} (h : 128 ≤ n) :
    encode n = UInt8.ofNat (n % 128 + 128) :: encode (n / 128) := by
  rw [encode, if_neg (Nat.not_lt.mpr h)]

private theorem toNat_ofNat {n : Nat} (h : n < 256) : (UInt8.ofNat n).toNat = n := by
  rw [UInt8.toNat_ofNat']
  exact Nat.mod_eq_of_lt h

/-- Reading inverts encoding and leaves what follows untouched. -/
theorem read_encode (n : Nat) (rest : Bytes) : read (encode n ++ rest) = some (n, rest) := by
  induction n using Nat.strongRecOn with
  | ind n ih =>
    by_cases h : n < 128
    · have hb := toNat_ofNat (show n < 256 by omega)
      rw [encode_of_lt h, List.cons_append, List.nil_append, read, hb, if_pos h]
    · have hle := Nat.le_of_not_lt h
      have hb := toNat_ofNat (show n % 128 + 128 < 256 by omega)
      rw [encode_of_le hle, List.cons_append, read, hb, if_neg (by omega), ih (n / 128) (by omega),
        Option.map_some]
      congr 2
      show (n % 128 + 128) % 128 + 128 * (n / 128) = n
      omega

private theorem length_encode_pos (n : Nat) : 0 < (encode n).length := by
  rw [encode]
  split_ifs <;> exact Nat.succ_pos _

/-- Seven bits a byte. -/
theorem length_encode_le {k n : Nat} (h : n < 128 ^ (k + 1)) : (encode n).length ≤ k + 1 := by
  induction k generalizing n with
  | zero =>
    rw [encode_of_lt (by simpa using h)]
    exact le_rfl
  | succ k ih =>
    by_cases hn : n < 128
    · rw [encode_of_lt hn]
      exact Nat.succ_le_succ (Nat.zero_le _)
    · rw [encode_of_le (Nat.le_of_not_lt hn), List.length_cons]
      refine Nat.succ_le_succ (ih ?_)
      rw [pow_succ] at h
      exact Nat.div_lt_of_lt_mul (by rwa [Nat.mul_comm])

/-- Whatever bytes spell an integer, its encoding is no longer than they are, and it is
the only one of its length. -/
theorem encode_minimal {bs rest : Bytes} {n : Nat} (h : read bs = some (n, rest)) :
    ∃ used, bs = used ++ rest ∧ (encode n).length ≤ used.length ∧
      (used.length ≤ (encode n).length → used = encode n) := by
  induction bs generalizing n with
  | nil => cases h
  | cons b bs ih =>
    have hb : b.toNat < 256 := b.toNat_lt
    rw [read] at h
    by_cases hlt : b.toNat < 128
    · rw [if_pos hlt] at h
      obtain ⟨rfl, rfl⟩ := Prod.mk.inj (Option.some.inj h)
      have he : encode b.toNat = [b] := by rw [encode_of_lt hlt, UInt8.ofNat_toNat]
      exact ⟨[b], rfl, by rw [he], fun _ => he.symm⟩
    · rw [if_neg hlt] at h
      obtain ⟨⟨m, rest'⟩, hm, he⟩ := Option.map_eq_some_iff.mp h
      obtain ⟨rfl, rfl⟩ := Prod.mk.inj he
      obtain ⟨used, rfl, hlen, heq⟩ := ih hm
      refine ⟨b :: used, rfl, ?_⟩
      by_cases hn : b.toNat % 128 + 128 * m < 128
      · -- a padded encoding: the last group is zero, so the shortest one is a byte shorter
        have hpos := length_encode_pos m
        rw [encode_of_lt hn, List.length_singleton, List.length_cons]
        exact ⟨by omega, fun hle => by omega⟩
      · have hdiv : (b.toNat % 128 + 128 * m) / 128 = m := by omega
        have hmod : (b.toNat % 128 + 128 * m) % 128 + 128 = b.toNat := by omega
        rw [encode_of_le (Nat.le_of_not_lt hn), hdiv, hmod, UInt8.ofNat_toNat, List.length_cons,
          List.length_cons]
        exact ⟨by omega, fun hle => by rw [heq (by omega)]⟩

/-- A successful read consumes at least one byte. -/
theorem length_lt_of_read {bs rest : Bytes} {n : Nat} (h : read bs = some (n, rest)) :
    rest.length < bs.length := by
  obtain ⟨used, rfl, hlen, -⟩ := encode_minimal h
  have hpos := length_encode_pos n
  rw [List.length_append]
  omega

end Varint

end NdnFwd
