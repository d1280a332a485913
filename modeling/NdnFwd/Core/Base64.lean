import NdnFwd.Core.Word

/-!
# Base64

Three bytes are written as four characters of six bits each; the two or four bits that a last
group of one or two bytes leaves over are zero. A variant chooses the last two characters and
whether the last group is padded. Only the text that the encoder writes is canonical.
-/

namespace NdnFwd

namespace Base64

/-- The padding character. -/
def pad : UInt8 := 0x3D

/-- Letters and digits, which every variant uses for the numbers below 62. -/
def IsAlphanumeric (b : UInt8) : Prop :=
  (0x41 ≤ b.toNat ∧ b.toNat ≤ 0x5A) ∨ (0x61 ≤ b.toNat ∧ b.toNat ≤ 0x7A) ∨
    (0x30 ≤ b.toNat ∧ b.toNat ≤ 0x39)

/-- Printable ASCII without the blank. -/
def IsVisible (b : UInt8) : Prop := 0x21 ≤ b.toNat ∧ b.toNat ≤ 0x7E

/-- A variant of the alphabet. -/
structure Variant where
  /-- The character of 62. -/
  c62 : UInt8
  /-- The character of 63. -/
  c63 : UInt8
  /-- Whether the last group is filled up with padding. -/
  padded : Bool
  distinct : c62 ≠ c63
  symbols : ∀ b ∈ [c62, c63], IsVisible b ∧ ¬IsAlphanumeric b ∧ b ≠ pad

/-- The standard alphabet, with padding. -/
def standard : Variant := ⟨0x2B, 0x2F, true, by decide, by
  simp [IsVisible, IsAlphanumeric, pad]⟩

/-- The alphabet for URLs and file names, without padding. -/
def urlSafeNoPad : Variant := ⟨0x2D, 0x5F, false, by decide, by
  simp [IsVisible, IsAlphanumeric, pad]⟩

variable (v : Variant)

/-- The character of a number below 64. -/
def char (n : Nat) : UInt8 :=
  if n < 26 then UInt8.ofNat (0x41 + n)
  else if n < 52 then UInt8.ofNat (0x61 + (n - 26))
  else if n < 62 then UInt8.ofNat (0x30 + (n - 52))
  else if n = 62 then v.c62
  else v.c63

/-- The number of a character. -/
def value (b : UInt8) : Option Nat :=
  if 0x41 ≤ b.toNat ∧ b.toNat ≤ 0x5A then some (b.toNat - 0x41)
  else if 0x61 ≤ b.toNat ∧ b.toNat ≤ 0x7A then some (b.toNat - 0x61 + 26)
  else if 0x30 ≤ b.toNat ∧ b.toNat ≤ 0x39 then some (b.toNat - 0x30 + 52)
  else if b = v.c62 then some 62
  else if b = v.c63 then some 63
  else none

/-- The padding of a last group that lacks `n` characters. -/
def padding (n : Nat) : Bytes := if v.padded then List.replicate n pad else []

/-- The text of a byte string. -/
def encode : Bytes → Bytes
  | a :: b :: c :: rest =>
    char v (a.toNat / 4) :: char v (a.toNat % 4 * 16 + b.toNat / 16) ::
      char v (b.toNat % 16 * 4 + c.toNat / 64) :: char v (c.toNat % 64) :: encode rest
  | [a, b] =>
    char v (a.toNat / 4) :: char v (a.toNat % 4 * 16 + b.toNat / 16) ::
      char v (b.toNat % 16 * 4) :: padding v 1
  | [a] => char v (a.toNat / 4) :: char v (a.toNat % 4 * 16) :: padding v 2
  | [] => []

/-- A group of four characters. -/
def decodeGroup (w x y z : UInt8) : Option Bytes := do
  let p ← value v w
  let q ← value v x
  let r ← value v y
  let s ← value v z
  some [UInt8.ofNat (p * 4 + q / 16), UInt8.ofNat (q % 16 * 16 + r / 4),
    UInt8.ofNat (r % 4 * 64 + s)]

/-- A last group of three characters, whose two bits left over are zero. -/
def decodeThree (w x y : UInt8) : Option Bytes := do
  let p ← value v w
  let q ← value v x
  let r ← value v y
  if r % 4 = 0 then some [UInt8.ofNat (p * 4 + q / 16), UInt8.ofNat (q % 16 * 16 + r / 4)]
  else none

/-- A last group of two characters, whose four bits left over are zero. -/
def decodeTwo (w x : UInt8) : Option Bytes := do
  let p ← value v w
  let q ← value v x
  if q % 16 = 0 then some [UInt8.ofNat (p * 4 + q / 16)] else none

/-- The byte string of a canonical text. -/
def decode : Bytes → Option Bytes
  | w :: x :: y :: z :: rest =>
    if v.padded ∧ rest = [] ∧ z = pad then
      if y = pad then decodeTwo v w x else decodeThree v w x y
    else do
      let bs ← decodeGroup v w x y z
      let more ← decode rest
      some (bs ++ more)
  | [w, x, y] => if v.padded then none else decodeThree v w x y
  | [w, x] => if v.padded then none else decodeTwo v w x
  | [_] => none
  | [] => some []

/-- An implementation: it writes the text of the variant, and reads at least the canonical one. -/
structure Engine where
  /-- The encoder. -/
  encode : Bytes → Bytes
  /-- The decoder. -/
  decode : Bytes → Option Bytes
  encode_eq : ∀ bs, encode bs = Base64.encode v bs
  decode_eq : ∀ text bs, Base64.decode v text = some bs → decode text = some bs

/-- The implementation that reads nothing else. -/
def Engine.canonical : Engine v := ⟨Base64.encode v, Base64.decode v, fun _ => rfl, fun _ _ h => h⟩

variable {v}

private theorem toNat_ofNat_of_lt {n : Nat} (h : n < 256) : (UInt8.ofNat n).toNat = n := by
  rw [UInt8.toNat_ofNat']
  exact Nat.mod_eq_of_lt h

/-- Every character is visible, and not the padding. -/
theorem char_visible (v : Variant) (n : Nat) : IsVisible (char v n) ∧ char v n ≠ pad := by
  have hsymbols := v.symbols
  have hletter : ∀ m, 0x30 ≤ m → m ≤ 0x7A → m ≠ 0x3D →
      IsVisible (UInt8.ofNat m) ∧ UInt8.ofNat m ≠ pad := by
    intro m hlow hhigh hpad
    have hm := toNat_ofNat_of_lt (n := m) (by omega)
    refine ⟨⟨by omega, by omega⟩, fun he => hpad ?_⟩
    rw [← hm, he]
    rfl
  simp only [List.mem_cons, List.not_mem_nil, or_false, forall_eq_or_imp, forall_eq] at hsymbols
  unfold char
  split_ifs with h26 h52 h62 h63
  · exact hletter _ (by omega) (by omega) (by omega)
  · exact hletter _ (by omega) (by omega) (by omega)
  · exact hletter _ (by omega) (by omega) (by omega)
  · exact ⟨hsymbols.1.1, hsymbols.1.2.2⟩
  · exact ⟨hsymbols.2.1, hsymbols.2.2.2⟩

/-- A character is read back. -/
theorem value_char (v : Variant) {n : Nat} (hn : n < 64) : value v (char v n) = some n := by
  have hsymbols := v.symbols
  simp only [List.mem_cons, List.not_mem_nil, or_false, forall_eq_or_imp, forall_eq,
    IsAlphanumeric, not_or] at hsymbols
  obtain ⟨⟨-, ⟨hA, ha, h0⟩, -⟩, -, ⟨hA', ha', h0'⟩, -⟩ := hsymbols
  unfold char
  split_ifs with h26 h52 h62 h63
  · have hb := toNat_ofNat_of_lt (n := 0x41 + n) (by omega)
    rw [value, hb, if_pos (by omega)]
    congr 1
    omega
  · have hb := toNat_ofNat_of_lt (n := 0x61 + (n - 26)) (by omega)
    rw [value, hb, if_neg (by omega), if_pos (by omega)]
    congr 1
    omega
  · have hb := toNat_ofNat_of_lt (n := 0x30 + (n - 52)) (by omega)
    rw [value, hb, if_neg (by omega), if_neg (by omega), if_pos (by omega)]
    congr 1
    omega
  · rw [value, if_neg hA, if_neg ha, if_neg h0, if_pos rfl, h63]
  · rw [value, if_neg hA', if_neg ha', if_neg h0', if_neg v.distinct.symm, if_pos rfl]
    congr 1
    omega

private theorem decodeGroup_encode (a b c : UInt8) :
    decodeGroup v (char v (a.toNat / 4)) (char v (a.toNat % 4 * 16 + b.toNat / 16))
      (char v (b.toNat % 16 * 4 + c.toNat / 64)) (char v (c.toNat % 64)) = some [a, b, c] := by
  have ha := a.toNat_lt
  have hb := b.toNat_lt
  have hc := c.toNat_lt
  have ha' : a.toNat / 4 * 4 + (a.toNat % 4 * 16 + b.toNat / 16) / 16 = a.toNat := by omega
  have hb' : (a.toNat % 4 * 16 + b.toNat / 16) % 16 * 16 +
      (b.toNat % 16 * 4 + c.toNat / 64) / 4 = b.toNat := by omega
  have hc' : (b.toNat % 16 * 4 + c.toNat / 64) % 4 * 64 + c.toNat % 64 = c.toNat := by omega
  rw [decodeGroup, value_char v (by omega), value_char v (by omega), value_char v (by omega),
    value_char v (by omega)]
  simp only [Option.bind_eq_bind, Option.bind_some, ha', hb', hc', UInt8.ofNat_toNat]

private theorem decodeThree_encode (a b : UInt8) :
    decodeThree v (char v (a.toNat / 4)) (char v (a.toNat % 4 * 16 + b.toNat / 16))
      (char v (b.toNat % 16 * 4)) = some [a, b] := by
  have ha := a.toNat_lt
  have hb := b.toNat_lt
  have ha' : a.toNat / 4 * 4 + (a.toNat % 4 * 16 + b.toNat / 16) / 16 = a.toNat := by omega
  have hb' : (a.toNat % 4 * 16 + b.toNat / 16) % 16 * 16 + b.toNat % 16 * 4 / 4 = b.toNat := by
    omega
  have hzero : b.toNat % 16 * 4 % 4 = 0 := Nat.mul_mod_left ..
  rw [decodeThree, value_char v (by omega), value_char v (by omega), value_char v (by omega)]
  simp only [Option.bind_eq_bind, Option.bind_some, ha', hb', hzero, if_true, UInt8.ofNat_toNat]

private theorem decodeTwo_encode (a : UInt8) :
    decodeTwo v (char v (a.toNat / 4)) (char v (a.toNat % 4 * 16)) = some [a] := by
  have ha := a.toNat_lt
  have ha' : a.toNat / 4 * 4 + a.toNat % 4 * 16 / 16 = a.toNat := by omega
  have hzero : a.toNat % 4 * 16 % 16 = 0 := Nat.mul_mod_left ..
  rw [decodeTwo, value_char v (by omega), value_char v (by omega)]
  simp only [Option.bind_eq_bind, Option.bind_some, ha', hzero, if_true, UInt8.ofNat_toNat]

/-- The text of a byte string is read back. -/
theorem decode_encode (bs : Bytes) : decode v (encode v bs) = some bs := by
  induction bs using encode.induct with
  | case1 a b c rest ih =>
    have hpad : ¬(v.padded ∧ encode v rest = [] ∧ char v (c.toNat % 64) = pad) :=
      fun h => (char_visible v _).2 h.2.2
    rw [encode, decode, if_neg hpad, decodeGroup_encode, ih]
    rfl
  | case2 a b =>
    have hpad := (char_visible v (b.toNat % 16 * 4)).2
    rw [encode, padding]
    cases hv : v.padded with
    | true => simp only [if_true, List.replicate_one, decode, hv, if_neg hpad, decodeThree_encode,
        and_self]
    | false => simp only [Bool.false_eq_true, if_false, decode, hv, decodeThree_encode]
  | case3 a =>
    rw [encode, padding]
    cases hv : v.padded with
    | true => simp only [if_true, List.replicate_succ, List.replicate_zero, decode, hv,
        decodeTwo_encode, and_self]
    | false => simp only [Bool.false_eq_true, if_false, decode, hv, decodeTwo_encode]
  | case4 => rfl

private theorem visible_of_mem_padding {n : Nat} {b : UInt8} (h : b ∈ padding v n) :
    IsVisible b := by
  rw [padding] at h
  split_ifs at h with hv
  · rw [List.eq_of_mem_replicate h, IsVisible, pad]
    decide
  · exact absurd h List.not_mem_nil

/-- Nothing but visible characters is written. -/
theorem visible_of_mem_encode {bs : Bytes} {b : UInt8} (h : b ∈ encode v bs) : IsVisible b := by
  have hchar : ∀ n, IsVisible (char v n) := fun n => (char_visible v n).1
  induction bs using encode.induct with
  | case1 a b c rest ih =>
    simp only [encode, List.mem_cons] at h
    rcases h with rfl | rfl | rfl | rfl | h
    · exact hchar _
    · exact hchar _
    · exact hchar _
    · exact hchar _
    · exact ih h
  | case2 a b =>
    simp only [encode, List.mem_cons] at h
    rcases h with rfl | rfl | rfl | h
    · exact hchar _
    · exact hchar _
    · exact hchar _
    · exact visible_of_mem_padding h
  | case3 a =>
    simp only [encode, List.mem_cons] at h
    rcases h with rfl | rfl | h
    · exact hchar _
    · exact hchar _
    · exact visible_of_mem_padding h
  | case4 => exact absurd h List.not_mem_nil

namespace Engine

variable (engine : Engine v)

/-- Whatever is encoded can be decoded. -/
@[simp] theorem decode_encode (bs : Bytes) : engine.decode (engine.encode bs) = some bs := by
  rw [engine.encode_eq]
  exact engine.decode_eq _ _ (Base64.decode_encode bs)

/-- An encoding has visible characters only. -/
theorem visible_of_mem_encode {bs : Bytes} {b : UInt8} (h : b ∈ engine.encode bs) :
    IsVisible b := by
  rw [engine.encode_eq] at h
  exact Base64.visible_of_mem_encode h

end Engine

example : encode standard [0xFB, 0xFF] = [0x2B, 0x2F, 0x38, 0x3D] ∧
    encode urlSafeNoPad [0xFB, 0xFF] = [0x2D, 0x5F, 0x38] := by decide

end Base64

end NdnFwd
