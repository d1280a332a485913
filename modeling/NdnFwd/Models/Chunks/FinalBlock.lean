import NdnFwd.Models.Chunks.Peek

/-!
# What a FinalBlockId declares

The decoder reads the announced bytes with a checked shift and a checked addition. The shift is
checked for its distance alone, so neither check ever fails, and a number that does not fit is
taken modulo the word size.
-/

namespace NdnFwd.FinalBlock

/-- The byte string starts with a segment component of this value. -/
def Spells (fb value : Bytes) : Prop :=
  ∃ len rest, fb = 0x32 :: len :: (value ++ rest) ∧ value.length = len.toNat

/-- The number of the segment component at the start is decoded if it fits, and nothing else is. -/
structure DecodesExactly (fb : Bytes) : Prop where
  spelled : ∀ n, decodeFinalBlockIdSegment fb = some n →
    ∃ value, Spells fb value ∧ n = Word.beNat value
  tooLarge : ∀ value, Spells fb value → 2 ^ usizeBits ≤ Word.beNat value →
    decodeFinalBlockIdSegment fb = none
  malformed : (∀ value, ¬Spells fb value) → decodeFinalBlockIdSegment fb = none

section Decoding

variable {fb value : Bytes}

/-- The announced bytes, if there are so many, are read modulo the word size. -/
theorem decode_of_spells (h : Spells fb value) :
    decodeFinalBlockIdSegment fb = some (Word.beNat value % 2 ^ usizeBits) := by
  obtain ⟨len, rest, rfl, hlen⟩ := h
  have hlong : ¬(value ++ rest).length < len.toNat := by
    rw [List.length_append]
    omega
  have htake : (value ++ rest).take len.toNat = value := by rw [← hlen, List.take_left]
  rw [decodeFinalBlockIdSegment, if_neg (not_not.mpr rfl), if_neg hlong, htake]
  exact Word.readBe_eq (by decide) value

/-- Whatever is decoded was spelled. -/
theorem exists_spells {n : Nat} (h : decodeFinalBlockIdSegment fb = some n) :
    ∃ value, Spells fb value := by
  unfold decodeFinalBlockIdSegment at h
  split at h
  next typ len rest =>
    split_ifs at h with htyp hlong
    rw [not_not] at htyp
    refine ⟨rest.take len.toNat, len, rest.drop len.toNat, ?_, ?_⟩
    · rw [htyp, List.take_append_drop]
    · rw [List.length_take]
      omega
  next => cases h

/-- The decoder is exact on a byte string exactly if the number at its start fits. -/
theorem decodesExactly_iff_fits (fb : Bytes) :
    DecodesExactly fb ↔ ∀ value, Spells fb value → Word.beNat value < 2 ^ usizeBits := by
  constructor
  · intro h value hspells
    by_contra hfits
    have hnone := h.tooLarge value hspells (Nat.not_lt.mp hfits)
    rw [decode_of_spells hspells] at hnone
    cases hnone
  · intro h
    refine ⟨fun n hn => ?_, fun value hspells hlarge => ?_, fun hnone => ?_⟩
    · obtain ⟨value, hspells⟩ := exists_spells hn
      rw [decode_of_spells hspells, Nat.mod_eq_of_lt (h value hspells)] at hn
      exact ⟨value, hspells, (Option.some.inj hn).symm⟩
    · exact absurd (h value hspells) (Nat.not_lt.mpr hlarge)
    · rw [Option.eq_none_iff_forall_ne_some]
      intro n hn
      obtain ⟨value, hspells⟩ := exists_spells hn
      exact hnone value hspells

/-- A segment component of some width, with a number that fits, is decoded to it. -/
theorem decode_beBytes {width n : Nat} (hwidth : width < 256) (hn : n < 256 ^ width)
    (hfits : n < 2 ^ usizeBits) :
    decodeFinalBlockIdSegment (0x32 :: UInt8.ofNat width :: Word.beBytes width n) = some n := by
  have hspells : Spells (0x32 :: UInt8.ofNat width :: Word.beBytes width n)
      (Word.beBytes width n) := by
    refine ⟨UInt8.ofNat width, [], by rw [List.append_nil], ?_⟩
    rw [Word.length_beBytes, UInt8.toNat_ofNat', Nat.mod_eq_of_lt hwidth]
  rw [decode_of_spells hspells, Word.beNat_beBytes, Nat.mod_eq_of_lt hn, Nat.mod_eq_of_lt hfits]

/-- The decoder is exact on a byte string exactly if the number at its start fits, and inverts the
encodings of one, two, four and eight bytes. -/
theorem decodesExactly_iff (fb : Bytes) :
    (DecodesExactly fb ↔ ∀ value, Spells fb value → Word.beNat value < 2 ^ usizeBits) ∧
    ∀ width ∈ [1, 2, 4, 8], ∀ n, n < 256 ^ width → n < 2 ^ usizeBits →
      decodeFinalBlockIdSegment (0x32 :: UInt8.ofNat width :: Word.beBytes width n) = some n := by
  refine ⟨decodesExactly_iff_fits fb, fun width hwidth n hn hfits => decode_beBytes ?_ hn hfits⟩
  simp only [List.mem_cons, List.not_mem_nil, or_false] at hwidth
  omega

/-- A number of nine bytes, which wraps around to five. -/
theorem nineBytes_not_decodesExactly :
    ¬DecodesExactly [0x32, 9, 1, 0, 0, 0, 0, 0, 0, 0, 5] := by
  intro h
  have hnone := h.tooLarge [1, 0, 0, 0, 0, 0, 0, 0, 5] ⟨9, [], rfl, rfl⟩ (by decide)
  exact absurd hnone (by decide)

end Decoding

end NdnFwd.FinalBlock
