import NdnFwd.Core.Word

/-!
# UTF-8 validation and lossy decoding

A machine reads one byte at a time and refuses the first byte that rules the text
out. A byte string is text when the machine ends between characters. Lossy decoding
replaces each maximal unfinished character by U+FFFD and starts again at the byte
that was refused.
-/

namespace NdnFwd

/-- `str::as_bytes`. -/
def asBytes (s : String) : Bytes := s.toUTF8.data.toList

/-- `String::from_utf8`. -/
def fromUtf8 (bs : Bytes) : Option String := String.fromUTF8? ⟨bs.toArray⟩

/-- The bytes of a string decode to it. -/
@[simp] theorem fromUtf8_asBytes (s : String) : fromUtf8 (asBytes s) = some s := by
  have h : (⟨(asBytes s).toArray⟩ : ByteArray) = s.toUTF8 := by simp [asBytes]
  rw [fromUtf8, h]
  exact dif_pos s.isValidUTF8

namespace Utf8

/-- Where the machine stands: between characters, or with some bytes still owed. -/
inductive State
  /-- Between characters. -/
  | start
  /-- One continuation byte owed. -/
  | tail1
  /-- Two continuation bytes owed. -/
  | tail2
  /-- Three continuation bytes owed. -/
  | tail3
  /-- After `E0`: no overlong form may follow. -/
  | afterE0
  /-- After `ED`: no surrogate may follow. -/
  | afterED
  /-- After `F0`: no overlong form may follow. -/
  | afterF0
  /-- After `F4`: nothing above U+10FFFF may follow. -/
  | afterF4
  deriving DecidableEq, Repr

/-- The state after the first byte of a character. -/
def first (b : Nat) : Option State :=
  if b ≤ 0x7F then some .start
  else if 0xC2 ≤ b ∧ b ≤ 0xDF then some .tail1
  else if b = 0xE0 then some .afterE0
  else if b = 0xED then some .afterED
  else if 0xE1 ≤ b ∧ b ≤ 0xEF then some .tail2
  else if b = 0xF0 then some .afterF0
  else if 0xF1 ≤ b ∧ b ≤ 0xF3 then some .tail3
  else if b = 0xF4 then some .afterF4
  else none

/-- One byte. `none` refuses it. -/
def step (q : State) (b : UInt8) : Option State :=
  let within (low high : Nat) (next : State) : Option State :=
    if low ≤ b.toNat ∧ b.toNat ≤ high then some next else none
  match q with
  | .start => first b.toNat
  | .tail1 => within 0x80 0xBF .start
  | .tail2 => within 0x80 0xBF .tail1
  | .tail3 => within 0x80 0xBF .tail2
  | .afterE0 => within 0xA0 0xBF .tail1
  | .afterED => within 0x80 0x9F .tail1
  | .afterF0 => within 0x90 0xBF .tail2
  | .afterF4 => within 0x80 0x8F .tail2

/-- Whether the machine, from state `q`, ends between characters. -/
def accepts : State → Bytes → Bool
  | q, [] => q = .start
  | q, b :: bs =>
    match step q b with
    | some q' => accepts q' bs
    | none => false

/-- `str::from_utf8(bs).is_ok()`. -/
def isText (bs : Bytes) : Bool := accepts .start bs

/-- U+FFFD. -/
def replacement : Bytes := [0xEF, 0xBF, 0xBD]

/-- Lossy decoding from state `q`, with the bytes of the unfinished character in `held`. -/
def lossyFrom : State → Bytes → Bytes → Bytes
  | q, _, [] => if q = .start then [] else replacement
  | q, held, b :: bs =>
    match step q b with
    | some .start => held ++ b :: lossyFrom .start [] bs
    | some q' => lossyFrom q' (held ++ [b]) bs
    | none =>
      if q = .start then replacement ++ lossyFrom .start [] bs
      else
        -- the refused byte may itself begin a character
        match step .start b with
        | some .start => replacement ++ b :: lossyFrom .start [] bs
        | some q' => replacement ++ lossyFrom q' [b] bs
        | none => replacement ++ (replacement ++ lossyFrom .start [] bs)

/-- `String::from_utf8_lossy`. -/
def lossy (bs : Bytes) : Bytes := lossyFrom .start [] bs

private theorem lossyFrom_of_accepts {q : State} {held bs : Bytes} (h : accepts q bs = true)
    (hq : q = .start → held = []) : lossyFrom q held bs = held ++ bs := by
  induction bs generalizing q held with
  | nil =>
    have hs : q = .start := by simpa [accepts] using h
    rw [lossyFrom, if_pos hs, hq hs]
    rfl
  | cons b bs ih =>
    rw [accepts] at h
    cases hb : step q b with
    | none =>
      rw [hb] at h
      cases h
    | some q' =>
      rw [hb] at h
      rw [lossyFrom, hb]
      by_cases hs : q' = .start
      · subst hs
        simp only [ih h fun _ => rfl, List.nil_append]
      · have hrest : lossyFrom q' (held ++ [b]) bs = held ++ [b] ++ bs :=
          ih h fun he => absurd he hs
        cases q' with
        | start => exact absurd rfl hs
        | _ => simpa only [List.append_assoc, List.cons_append, List.nil_append] using hrest

/-- Text is decoded unchanged. -/
theorem lossy_of_isText {bs : Bytes} (h : isText bs = true) : lossy bs = bs :=
  lossyFrom_of_accepts h fun _ => rfl

private theorem accepts_lossyFrom {q : State} {held : Bytes} (bs : Bytes)
    (h : ∀ rest, accepts .start (held ++ rest) = accepts q rest) :
    accepts .start (lossyFrom q held bs) = true := by
  have hreplace : ∀ rest, accepts .start (replacement ++ rest) = accepts .start rest := fun _ => rfl
  have hnil : ∀ rest, accepts .start ([] ++ rest) = accepts .start rest := fun _ => rfl
  induction bs generalizing q held with
  | nil =>
    rw [lossyFrom]
    split_ifs <;> rfl
  | cons b bs ih =>
    rw [lossyFrom]
    split
    next hq =>
      rw [h, accepts, hq]
      exact ih hnil
    next q' _ hq =>
      refine ih fun rest => ?_
      rw [List.append_assoc, h, List.singleton_append, accepts, hq]
    · split_ifs
      · rw [hreplace]
        exact ih hnil
      · split
        next hq =>
          rw [hreplace, accepts, hq]
          exact ih hnil
        next q' _ hq =>
          rw [hreplace]
          refine ih fun rest => ?_
          rw [List.singleton_append, accepts, hq]
        · rw [hreplace, hreplace]
          exact ih hnil

/-- Lossy decoding yields text. -/
theorem isText_lossy (bs : Bytes) : isText (lossy bs) = true := accepts_lossyFrom bs fun _ => rfl

example : isText [0xE2, 0x82, 0xAC] = true ∧ isText [0xED, 0xA0, 0x80] = false ∧
    lossy [0x61, 0xE2, 0x82, 0x62, 0xFF] =
      [0x61] ++ replacement ++ [0x62] ++ replacement := by decide

end Utf8

end NdnFwd
