import Mathlib.Data.List.Basic
import Mathlib.Data.List.TakeWhile
import NdnFwd.Core.Utf8

/-!
# Text

What the standard library does with the characters of a string: their encoding, and the whitespace
around them.
-/

namespace NdnFwd.Text

/-- `char::is_whitespace`. -/
def isWhitespace (c : Char) : Bool :=
  (0x09 ≤ c.toNat && c.toNat ≤ 0x0D) || c.toNat = 0x20 || c.toNat = 0x85 || c.toNat = 0xA0 ||
    c.toNat = 0x1680 || (0x2000 ≤ c.toNat && c.toNat ≤ 0x200A) || c.toNat = 0x2028 ||
    c.toNat = 0x2029 || c.toNat = 0x202F || c.toNat = 0x205F || c.toNat = 0x3000

/-- `str::trim`. -/
def trim (text : List Char) : List Char :=
  ((text.dropWhile isWhitespace).reverse.dropWhile isWhitespace).reverse

/-- `as_bytes().to_vec()`. -/
def utf8 (text : List Char) : Bytes := asBytes (String.ofList text)

/-- The characters of an ASCII byte string. -/
def ascii (bs : Bytes) : List Char := bs.map Char.ofUInt8

section Encoding

variable {bs : Bytes} {text before after : List Char}

/-- Only the empty text has no bytes. -/
theorem utf8_eq_nil {text : List Char} : utf8 text = [] ↔ text = [] := by
  constructor
  · intro h
    have htext := fromUtf8_asBytes (String.ofList text)
    rw [← utf8, h] at htext
    have hempty := Option.some.inj (htext.symm.trans (fromUtf8_asBytes ""))
    exact String.ofList_injective hempty
  · rintro rfl
    rfl

/-- An ASCII character has the number of its byte. -/
theorem toNat_ofUInt8 (b : UInt8) : (Char.ofUInt8 b).toNat = b.toNat := UInt8.toNat_toUInt32 b

/-- The bytes of ASCII text. -/
theorem utf8_ascii (h : ∀ b ∈ bs, b.toNat < 0x80) : utf8 (ascii bs) = bs := by
  have hchar : ∀ b ∈ bs, String.utf8EncodeChar (Char.ofUInt8 b) = [b] := by
    intro b hb
    have hval : (Char.ofUInt8 b).val.toNat = b.toNat := toNat_ofUInt8 b
    have hlt := h b hb
    rw [String.utf8EncodeChar, hval, if_pos (by omega), UInt8.ofNat_toNat]
  have hflat : (ascii bs).flatMap String.utf8EncodeChar = bs := by
    rw [ascii, List.flatMap_map, List.flatMap_congr hchar, List.flatMap_singleton']
  rw [utf8, asBytes, String.toUTF8_eq_toByteArray, String.toByteArray_ofList,
    List.utf8Encode, hflat, List.data_toByteArray]

/-- What is visible is not whitespace. -/
theorem isWhitespace_of_visible {c : Char} (h : 0x21 ≤ c.toNat ∧ c.toNat ≤ 0x7E) :
    isWhitespace c = false := by
  simp only [isWhitespace, Bool.or_eq_false_iff, Bool.and_eq_false_iff, decide_eq_false_iff_not]
  omega

private theorem dropWhile_blank (hbefore : ∀ c ∈ before, isWhitespace c = true)
    (htext : ∀ c ∈ text, isWhitespace c = false) :
    (before ++ text).dropWhile isWhitespace = text := by
  rw [List.dropWhile_append_of_pos hbefore]
  cases text with
  | nil => rfl
  | cons c text => exact List.dropWhile_cons_of_neg (by simp [htext c (List.mem_cons_self ..)])

/-- Whitespace around a text without any is trimmed. -/
theorem trim_append (hbefore : ∀ c ∈ before, isWhitespace c = true)
    (hafter : ∀ c ∈ after, isWhitespace c = true)
    (htext : ∀ c ∈ text, isWhitespace c = false) :
    trim (before ++ text ++ after) = text := by
  have hreverse : ∀ c ∈ after.reverse, isWhitespace c = true :=
    fun c hc => hafter c (List.mem_reverse.mp hc)
  have htail : (after.reverse ++ text.reverse).dropWhile isWhitespace = text.reverse :=
    dropWhile_blank hreverse fun c hc => htext c (List.mem_reverse.mp hc)
  rw [trim, List.append_assoc, List.dropWhile_append_of_pos hbefore]
  cases text with
  | nil =>
    have hall : after.dropWhile isWhitespace = [] := List.dropWhile_eq_nil_iff.mpr hafter
    rw [List.nil_append, hall]
    rfl
  | cons c text =>
    have hhead : ¬isWhitespace c = true := by simp [htext c (List.mem_cons_self ..)]
    rw [List.cons_append, List.dropWhile_cons_of_neg hhead, ← List.cons_append,
      List.reverse_append, htail, List.reverse_reverse]

/-- A text without whitespace is trimmed already. -/
theorem trim_eq_self (htext : ∀ c ∈ text, isWhitespace c = false) : trim text = text := by
  have h : trim ([] ++ text ++ []) = text := trim_append (by simp) (by simp) htext
  rwa [List.nil_append, List.append_nil] at h

end Encoding

end NdnFwd.Text
