import NdnFwd.Models.Otel.Bridge

/-!
# Which lines are span identifiers

`decode_pair` reads an identifier two bytes at a time. A slice that ends inside a character
makes it panic, and the number parser behind it takes a sign for a digit. Both happen on texts
of the right length only; everywhere else it accepts exactly the hexadecimal identifiers.
-/

namespace NdnFwd.Otel

/-- A character from `[0-9a-fA-F]`. -/
def isHexDigit (b : UInt8) : Bool :=
  (0x30 ≤ b && b ≤ 0x39) || (0x41 ≤ b && b ≤ 0x46) || (0x61 ≤ b && b ≤ 0x66)

/-- `to_ascii_lowercase`. -/
def asciiLower (b : UInt8) : UInt8 := if 0x41 ≤ b ∧ b ≤ 0x5A then b + 0x20 else b

/-- `b'+'`. -/
def plus : UInt8 := 0x2B

/-- A text of so many hexadecimal digits. -/
def IsHex (length : Nat) (text : Bytes) : Prop :=
  text.length = length ∧ ∀ b ∈ text, isHexDigit b = true

/-- Two bytes of a text, and what comes after them. -/
structure Slice where
  fst : UInt8
  snd : UInt8
  rest : Bytes

/-- The two-byte slices of a text. -/
def slices : Bytes → List Slice
  | a :: b :: rest => ⟨a, b, rest⟩ :: slices rest
  | _ => []

namespace Slice

/-- A digit, or a plus sign in the place of the first one. -/
def isNumber (p : Slice) : Bool := (isHexDigit p.fst || p.fst = plus) && isHexDigit p.snd

/-- The slice ends inside a character. -/
def splits (p : Slice) : Bool := p.rest.head?.any isContinuation

/-- The number, if there is one. -/
def value (p : Slice) : UInt8 := (fromStrRadix16 p.fst p.snd).getD 0

end Slice

/-- The first slice that is no number does not split a character; and if all are numbers, none
has a sign. -/
def legible (traceHex spanHex : Bytes) : Bool :=
  match (slices traceHex ++ slices spanHex).find? fun p => !p.isNumber with
  | some p => !p.splits
  | none => (slices traceHex ++ slices spanHex).all fun p => p.fst ≠ plus

/-- `decode_pair` does not panic on two texts, accepts them exactly if they are hexadecimal
identifiers, inverts `hex_lower`, and its answer spells them in lower case. -/
structure DecodesHexIds (traceHex spanHex : Bytes) : Prop where
  total : ∀ e, decodePair traceHex spanHex ≠ .error e
  accepts : (∃ p, decodePair traceHex spanHex = .ok (some p)) ↔
    IsHex 32 traceHex ∧ IsHex 16 spanHex
  inverts : ∀ p : Pair, p.1.length = 16 → p.2.length = 8 → traceHex = hexLower p.1 →
    spanHex = hexLower p.2 → decodePair traceHex spanHex = .ok (some p)
  spells : ∀ p, decodePair traceHex spanHex = .ok (some p) →
    hexLower p.1 = traceHex.map asciiLower ∧ hexLower p.2 = spanHex.map asciiLower

section Digits

private theorem forall_byte {P : UInt8 → Prop} (h : ∀ n : Fin 256, P (UInt8.ofNat n)) (b : UInt8) :
    P b := by
  have hb := h ⟨b.toNat, b.toNat_lt⟩
  rwa [UInt8.ofNat_toNat] at hb

/-- The digit that `hex_lower` writes. -/
def lowerDigit (v : UInt8) : UInt8 := (asBytes "0123456789abcdef").getD v.toNat 0

private theorem isSome_hexDigit (b : UInt8) : (hexDigit b).isSome = isHexDigit b :=
  forall_byte (P := fun b => (hexDigit b).isSome = isHexDigit b) (by decide +kernel) b

/-- A digit is written back in lower case. -/
theorem lowerDigit_hexDigit {b v : UInt8} (h : hexDigit b = some v) :
    v.toNat < 16 ∧ lowerDigit v = asciiLower b :=
  forall_byte (P := fun b => ∀ v ∈ hexDigit b, v.toNat < 16 ∧ lowerDigit v = asciiLower b)
    (by decide +kernel) b v h

/-- The two halves of a byte are read back from their digits. -/
theorem hexDigit_lowerDigit (b : UInt8) :
    hexDigit (lowerDigit (b >>> 4)) = some (b >>> 4) ∧
      hexDigit (lowerDigit (b &&& 0x0F)) = some (b &&& 0x0F) ∧
        (b >>> 4) * 16 + (b &&& 0x0F) = b :=
  forall_byte (P := fun b => hexDigit (lowerDigit (b >>> 4)) = some (b >>> 4) ∧
    hexDigit (lowerDigit (b &&& 0x0F)) = some (b &&& 0x0F) ∧
      (b >>> 4) * 16 + (b &&& 0x0F) = b) (by decide +kernel) b

/-- The halves of a byte made of two digits. -/
theorem halves {hi lo : UInt8} (hhi : hi.toNat < 16) (hlo : lo.toNat < 16) :
    (hi * 16 + lo) >>> 4 = hi ∧ (hi * 16 + lo) &&& 0x0F = lo := by
  have h : ∀ m n : Fin 16, (UInt8.ofNat m * 16 + UInt8.ofNat n) >>> 4 = UInt8.ofNat m ∧
      (UInt8.ofNat m * 16 + UInt8.ofNat n) &&& 0x0F = UInt8.ofNat n := by decide +kernel
  simpa only [UInt8.ofNat_toNat] using h ⟨hi.toNat, hhi⟩ ⟨lo.toNat, hlo⟩

private theorem toNat_le_of_isHexDigit {b : UInt8} (h : isHexDigit b = true) : b.toNat ≤ 0x7F :=
  forall_byte (P := fun b => isHexDigit b = true → b.toNat ≤ 0x7F) (by decide +kernel) b h

end Digits

section Texts

/-- A character of one byte. -/
theorem isText_cons {b : UInt8} (h : b.toNat ≤ 0x7F) (bs : Bytes) :
    Utf8.isText (b :: bs) = Utf8.isText bs := by
  rw [Utf8.isText, Utf8.accepts, Utf8.step, Utf8.first, if_pos h]
  rfl

/-- No text begins inside a character. -/
theorem head_of_isText {bs : Bytes} (h : Utf8.isText bs = true) :
    bs.head?.any isContinuation = false := by
  cases bs with
  | nil => rfl
  | cons b bs =>
    by_contra hcont
    have hrefused : Utf8.first b.toNat = none :=
      forall_byte (P := fun b => isContinuation b = true → Utf8.first b.toNat = none)
        (by decide +kernel) b (by simpa using hcont)
    rw [Utf8.isText, Utf8.accepts, Utf8.step, hrefused] at h
    cases h

end Texts

section Slices

variable {bs : Bytes}

/-- A slice is a number if the parser takes it for one. -/
theorem Slice.isNumber_eq (p : Slice) : p.isNumber = (fromStrRadix16 p.fst p.snd).isSome := by
  rw [isNumber, fromStrRadix16]
  split_ifs with hplus
  · rw [hplus, isSome_hexDigit]
    rfl
  · have hne : decide (p.fst = plus) = false := decide_eq_false hplus
    rw [hne, Bool.or_false, ← isSome_hexDigit, ← isSome_hexDigit]
    cases hexDigit p.fst <;> cases hexDigit p.snd <;> rfl

/-- Both bytes of a number are characters of their own. -/
theorem Slice.isText_of_isNumber {p : Slice} (h : p.isNumber = true) :
    Utf8.isText (p.fst :: p.snd :: p.rest) = Utf8.isText p.rest := by
  simp only [isNumber, Bool.and_eq_true, Bool.or_eq_true, decide_eq_true_eq] at h
  have hfst : p.fst.toNat ≤ 0x7F := by
    rcases h.1 with hhex | hplus
    · exact toNat_le_of_isHexDigit hhex
    · rw [hplus]
      decide
  rw [isText_cons hfst, isText_cons (toNat_le_of_isHexDigit h.2)]

/-- On a text the loop stops at the first slice that is no number, by a panic if this splits a
character. -/
theorem decodeHex_eq (h : Utf8.isText bs = true) : decodeHex bs =
    match (slices bs).find? fun p => !p.isNumber with
    | some p => if p.splits then .error .notCharBoundary else .ok none
    | none => .ok (some ((slices bs).map Slice.value)) := by
  induction bs using slices.induct with
  | case1 a b rest ih =>
    have hhead : isContinuation a = false := by simpa using head_of_isText h
    have hnumber := Slice.isNumber_eq ⟨a, b, rest⟩
    rw [decodeHex, slices, List.find?_cons, hhead, Bool.false_or]
    cases hv : fromStrRadix16 a b with
    | none =>
      simp only [hv, Option.isSome_none] at hnumber
      simp only [hnumber, Bool.not_false]
      rfl
    | some v =>
      simp only [hv, Option.isSome_some] at hnumber
      have hrest := (Slice.isText_of_isNumber hnumber).symm.trans h
      simp only [hnumber, Bool.not_true, head_of_isText hrest, Bool.false_eq_true, if_false,
        ih hrest]
      cases (slices rest).find? fun p => !p.isNumber with
      | none => simp [Except.map, Slice.value, hv]
      | some p =>
        dsimp only
        split_ifs <;> rfl
  | case2 bs hbs =>
    rcases bs with _ | ⟨a, _ | ⟨b, rest⟩⟩
    · rfl
    · rfl
    · exact absurd rfl (hbs a b rest)

/-- A text of even length is read two bytes at a time. -/
theorem even_induction {P : Bytes → Prop} (hnil : P [])
    (hcons : ∀ a b rest, P rest → P (a :: b :: rest)) : ∀ bs : Bytes, bs.length % 2 = 0 → P bs
  | [], _ => hnil
  | [_], h => by cases h
  | a :: b :: rest, h => by
    apply hcons a b rest
    apply even_induction hnil hcons rest
    rw [List.length_cons, List.length_cons] at h
    omega

/-- A text of even length consists of its slices. -/
theorem forall_mem_iff_slices {P : UInt8 → Prop} (heven : bs.length % 2 = 0) :
    (∀ b ∈ bs, P b) ↔ ∀ p ∈ slices bs, P p.fst ∧ P p.snd := by
  refine even_induction (P := fun bs => (∀ b ∈ bs, P b) ↔ ∀ p ∈ slices bs, P p.fst ∧ P p.snd)
    ?_ (fun a b rest ih => ?_) bs heven
  · exact iff_of_true (fun b hb => absurd hb List.not_mem_nil)
      fun p hp => absurd hp List.not_mem_nil
  · rw [slices, List.forall_mem_cons, List.forall_mem_cons, List.forall_mem_cons, ih, and_assoc]

/-- A text is hexadecimal if its slices are numbers without a sign. -/
theorem isHex_iff {length : Nat} (heven : length % 2 = 0) (hlen : bs.length = length) :
    IsHex length bs ↔ ∀ p ∈ slices bs, p.isNumber = true ∧ p.fst ≠ plus := by
  rw [IsHex, and_iff_right hlen, forall_mem_iff_slices (hlen ▸ heven)]
  refine forall₂_congr fun p _ => ?_
  have hsign : isHexDigit plus = false := by decide
  simp only [Slice.isNumber, Bool.and_eq_true, Bool.or_eq_true, decide_eq_true_eq]
  constructor
  · rintro ⟨hfst, hsnd⟩
    refine ⟨⟨Or.inl hfst, hsnd⟩, fun hplus => ?_⟩
    rw [hplus, hsign] at hfst
    cases hfst
  · rintro ⟨⟨hfst, hsnd⟩, hplus⟩
    exact ⟨hfst.resolve_right hplus, hsnd⟩

private theorem hexLower_cons (v : UInt8) (vs : Bytes) : hexLower (v :: vs) =
    lowerDigit (v >>> 4) :: lowerDigit (v &&& 0x0F) :: hexLower vs := rfl

/-- A number of two digits is written back in lower case. -/
theorem lowerDigit_value {p : Slice} (hfst : isHexDigit p.fst = true)
    (hsnd : isHexDigit p.snd = true) : lowerDigit (p.value >>> 4) = asciiLower p.fst ∧
      lowerDigit (p.value &&& 0x0F) = asciiLower p.snd := by
  obtain ⟨hi, hhi⟩ := Option.isSome_iff_exists.mp ((isSome_hexDigit p.fst).trans hfst)
  obtain ⟨lo, hlo⟩ := Option.isSome_iff_exists.mp ((isSome_hexDigit p.snd).trans hsnd)
  obtain ⟨hhi16, hupper⟩ := lowerDigit_hexDigit hhi
  obtain ⟨hlo16, hlower⟩ := lowerDigit_hexDigit hlo
  obtain ⟨hhigh, hlow⟩ := halves hhi16 hlo16
  have hplus : p.fst ≠ 0x2B := by
    intro heq
    rw [heq] at hfst
    cases hfst
  have hvalue : p.value = hi * 16 + lo := by
    rw [Slice.value, fromStrRadix16, if_neg hplus, hhi, hlo]
    rfl
  rw [hvalue, hhigh, hlow]
  exact ⟨hupper, hlower⟩

/-- The numbers of a hexadecimal text are written back in lower case. -/
theorem hexLower_values (heven : bs.length % 2 = 0) (h : ∀ b ∈ bs, isHexDigit b = true) :
    hexLower ((slices bs).map Slice.value) = bs.map asciiLower := by
  refine even_induction (P := fun bs => (∀ b ∈ bs, isHexDigit b = true) →
    hexLower ((slices bs).map Slice.value) = bs.map asciiLower) (fun _ => rfl)
    (fun a b rest ih h => ?_) bs heven h
  rw [List.forall_mem_cons, List.forall_mem_cons] at h
  obtain ⟨ha, hb, hrest⟩ := h
  obtain ⟨hhigh, hlow⟩ := lowerDigit_value (p := ⟨a, b, rest⟩) ha hb
  rw [slices, List.map_cons, List.map_cons, List.map_cons, hexLower_cons, hhigh, hlow, ih hrest]

/-- What is written in lower case is text. -/
theorem isText_hexLower (bs : Bytes) : Utf8.isText (hexLower bs) = true := by
  induction bs with
  | nil => rfl
  | cons b bs ih =>
    obtain ⟨hhigh, hlow, -⟩ := hexDigit_lowerDigit b
    have hdigit : ∀ {c v : UInt8}, hexDigit c = some v → c.toNat ≤ 0x7F := by
      intro c v hc
      apply toNat_le_of_isHexDigit
      rw [← isSome_hexDigit, hc, Option.isSome_some]
    rw [hexLower_cons, isText_cons (hdigit hhigh), isText_cons (hdigit hlow), ih]

/-- An identifier is read back from its lower-case form. -/
theorem decodeHex_hexLower (bs : Bytes) : decodeHex (hexLower bs) = .ok (some bs) := by
  induction bs with
  | nil => rfl
  | cons b bs ih =>
    obtain ⟨hhigh, hlow, hbyte⟩ := hexDigit_lowerDigit b
    have hhead := head_of_isText (isText_hexLower (b :: bs))
    have hplus : lowerDigit (b >>> 4) ≠ 0x2B := by
      intro heq
      rw [heq] at hhigh
      cases hhigh
    have hvalue : fromStrRadix16 (lowerDigit (b >>> 4)) (lowerDigit (b &&& 0x0F)) = some b := by
      rw [fromStrRadix16, if_neg hplus, hhigh, hlow]
      exact congrArg some hbyte
    rw [hexLower_cons, List.head?_cons, Option.any_some] at hhead
    rw [hexLower_cons, decodeHex, hhead, head_of_isText (isText_hexLower bs), hvalue, ih]
    rfl

private theorem length_hexLower (bs : Bytes) : (hexLower bs).length = 2 * bs.length := by
  induction bs with
  | nil => rfl
  | cons b bs ih =>
    rw [hexLower_cons, List.length_cons, List.length_cons, ih, List.length_cons]
    omega

end Slices

section Pairs

/-- Every pair of identifiers is read back from its name. -/
theorem decodePair_hexLower {p : Pair} (ht : p.1.length = 16) (hs : p.2.length = 8) :
    decodePair (hexLower p.1) (hexLower p.2) = .ok (some p) := by
  have hlen : ¬((hexLower p.1).length ≠ 32 ∨ (hexLower p.2).length ≠ 16) := by
    rw [length_hexLower, length_hexLower]
    omega
  rw [decodePair, if_neg hlen, decodeHex_hexLower, decodeHex_hexLower]
  rfl

variable {t s : Bytes}

/-- A refusal is right for texts that are not both hexadecimal identifiers. -/
theorem decodesHexIds_of_none (h : decodePair t s = .ok none) (hnot : ¬(IsHex 32 t ∧ IsHex 16 s)) :
    DecodesHexIds t s where
  total e he := by
    rw [h] at he
    cases he
  accepts := by
    refine iff_of_false ?_ hnot
    rintro ⟨p, hp⟩
    rw [h] at hp
    cases hp
  inverts p hp hp' ht hs := by
    rw [ht, hs]
    exact decodePair_hexLower hp hp'
  spells p hp := by
    rw [h] at hp
    cases hp

/-- An answer is right for hexadecimal identifiers that it spells. -/
theorem decodesHexIds_of_some {p : Pair} (h : decodePair t s = .ok (some p))
    (hhex : IsHex 32 t ∧ IsHex 16 s) (ht : hexLower p.1 = t.map asciiLower)
    (hs : hexLower p.2 = s.map asciiLower) : DecodesHexIds t s where
  total e he := by
    rw [h] at he
    cases he
  accepts := iff_of_true ⟨p, h⟩ hhex
  inverts q hq hq' ht hs := by
    rw [ht, hs]
    exact decodePair_hexLower hq hq'
  spells q hq := by
    rw [h] at hq
    cases hq
    exact ⟨ht, hs⟩

/-- What `decode_pair` makes of two texts of the right lengths. -/
theorem decodePair_eq (ht : Utf8.isText t = true) (hs : Utf8.isText s = true)
    (htlen : t.length = 32) (hslen : s.length = 16) : decodePair t s =
      match (slices t ++ slices s).find? fun p => !p.isNumber with
      | some p => if p.splits then .error .notCharBoundary else .ok none
      | none => .ok (some ((slices t).map Slice.value, (slices s).map Slice.value)) := by
  have hlen : ¬(t.length ≠ 32 ∨ s.length ≠ 16) := by omega
  rw [decodePair, if_neg hlen, decodeHex_eq ht, decodeHex_eq hs, List.find?_append]
  cases (slices t).find? fun p => !p.isNumber with
  | some p =>
    dsimp only [Option.some_or]
    split_ifs <;> rfl
  | none =>
    dsimp only [Option.none_or]
    cases (slices s).find? fun p => !p.isNumber with
    | some p =>
      dsimp only
      split_ifs <;> rfl
    | none => rfl

private theorem isHex_pair_iff (htlen : t.length = 32) (hslen : s.length = 16) :
    IsHex 32 t ∧ IsHex 16 s ↔
      ∀ p ∈ slices t ++ slices s, p.isNumber = true ∧ p.fst ≠ plus := by
  rw [isHex_iff rfl htlen, isHex_iff rfl hslen, List.forall_mem_append]

/-- `decode_pair` works on two texts if and only if they are legible or of another length. -/
theorem decodesHexIds_iff (t s : Bytes) (ht : Utf8.isText t = true) (hs : Utf8.isText s = true) :
    DecodesHexIds t s ↔ (t.length = 32 → s.length = 16 → legible t s = true) := by
  by_cases hlen : t.length = 32 ∧ s.length = 16
  · obtain ⟨htlen, hslen⟩ := hlen
    have hdecode := decodePair_eq ht hs htlen hslen
    have hhex := isHex_pair_iff htlen hslen
    simp only [htlen, hslen, forall_const, legible]
    cases hfind : (slices t ++ slices s).find? fun p => !p.isNumber with
    | some p =>
      simp only [hfind] at hdecode
      have hnumber : p.isNumber = false := by simpa using List.find?_some hfind
      have hnot : ¬(IsHex 32 t ∧ IsHex 16 s) := by
        rw [hhex]
        intro hall
        have htrue := (hall p (List.mem_of_find?_eq_some hfind)).1
        rw [hnumber] at htrue
        cases htrue
      constructor
      · intro h
        by_contra hsplits
        rw [Bool.not_eq_true, Bool.not_eq_false'] at hsplits
        rw [if_pos hsplits] at hdecode
        exact h.total _ hdecode
      · intro hwhole
        rw [Bool.not_eq_true'] at hwhole
        rw [hwhole] at hdecode
        exact decodesHexIds_of_none hdecode hnot
    | none =>
      simp only [hfind] at hdecode
      have hnumbers : ∀ p ∈ slices t ++ slices s, p.isNumber = true := by
        simpa using List.find?_eq_none.mp hfind
      have hplain : (IsHex 32 t ∧ IsHex 16 s) ↔
          ((slices t ++ slices s).all fun p => p.fst ≠ plus) = true := by
        rw [hhex, List.all_eq_true]
        simp only [decide_eq_true_eq]
        exact forall₂_congr fun p hp => and_iff_right (hnumbers p hp)
      rw [← hplain]
      constructor
      · intro h
        exact h.accepts.mp ⟨_, hdecode⟩
      · intro hids
        exact decodesHexIds_of_some hdecode hids (hexLower_values (htlen ▸ rfl) hids.1.2)
          (hexLower_values (hslen ▸ rfl) hids.2.2)
  · refine iff_of_true (decodesHexIds_of_none ?_ fun h => hlen ⟨h.1.1, h.2.1⟩) fun ht hs =>
      absurd ⟨ht, hs⟩ hlen
    rw [decodePair, if_pos (by omega)]

/-- Identifiers in upper and lower case. -/
theorem decodesHexIds_mixed :
    DecodesHexIds (asBytes "0102030405060708090A0b0c0d0e0F10") (asBytes "a1a2A3a4a5a6a7a8") :=
  (decodesHexIds_iff _ _ (by decide) (by decide)).mpr (by decide)

/-- A slice that ends inside a character. -/
theorem not_decodesHexIds_accent :
    (Utf8.isText (asBytes "zé00000000000000000000000000000") = true ∧
      Utf8.isText (asBytes "0000000000000000") = true) ∧
      ¬DecodesHexIds (asBytes "zé00000000000000000000000000000") (asBytes "0000000000000000") := by
  refine ⟨by decide, fun h => ?_⟩
  exact h.total .notCharBoundary (by decide)

end Pairs

end NdnFwd.Otel
