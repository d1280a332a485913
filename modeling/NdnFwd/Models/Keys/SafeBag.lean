import Mathlib.Data.List.Basic
import NdnFwd.Core.Base64

/-!
# Exported keys

A SafeBag is written as its wire or as one line of base64. Import tells the two apart by the
first byte alone: a wire begins with the type of a SafeBag, which no text begins with. Of a text
only the whitespace is ignored, so it may be wrapped wherever another program likes.
-/

namespace NdnFwd.SafeBag

/-- `WireFormat`. -/
inductive WireFormat
  | base64
  | raw
  deriving DecidableEq, Repr

variable (engine : Base64.Engine Base64.standard)

/-- The payload that `cmd_export` writes. -/
def payload (format : WireFormat) (wire : Bytes) : Bytes :=
  match format with
  | .raw => wire
  | .base64 => engine.encode wire ++ [0x0A]

/-- `u8::is_ascii_whitespace`. -/
def isAsciiWhitespace (b : UInt8) : Bool :=
  b = 0x20 || b = 0x09 || b = 0x0A || b = 0x0C || b = 0x0D

/-- `normalize_safebag_bytes`. -/
def normalizeSafebagBytes (input : Bytes) : Option Bytes :=
  if input.head? = some 0x80 then some input
  else
    let cleaned := input.filter fun b => !isAsciiWhitespace b
    (engine.decode cleaned).filter fun w => w.head? = some 0x80

/-- `Spaced form text`: the text is that form with ASCII whitespace inserted anywhere. -/
inductive Spaced : Bytes → Bytes → Prop
  | nil : Spaced [] []
  | keep (b : UInt8) {form text : Bytes} (h : Spaced form text) : Spaced (b :: form) (b :: text)
  | insert {b : UInt8} (hb : isAsciiWhitespace b = true) {form text : Bytes}
      (h : Spaced form text) : Spaced form (b :: text)

section Whitespace

variable {form text : Bytes} {b : UInt8}

private theorem isAsciiWhitespace_of_visible (h : Base64.IsVisible b) :
    isAsciiWhitespace b = false := by
  have hne : ∀ c : UInt8, c.toNat < 0x21 → b ≠ c := by
    rintro c hc rfl
    exact absurd h.1 (Nat.not_le.mpr hc)
  simp [isAsciiWhitespace, hne]

namespace Spaced

/-- Nothing is inserted. -/
theorem refl : (bs : Bytes) → Spaced bs bs
  | [] => nil
  | b :: bs => keep b (refl bs)

/-- What was inserted is cleaned away. -/
theorem filter_eq (h : Spaced form text) :
    (text.filter fun b => !isAsciiWhitespace b) = form.filter fun b => !isAsciiWhitespace b := by
  induction h with
  | nil => rfl
  | keep b _ ih => rw [List.filter_cons, List.filter_cons, ih]
  | insert hb _ ih => rw [List.filter_cons_of_neg (by simp [hb]), ih]

/-- Whatever is in the text was in the form, or is whitespace. -/
theorem mem (h : Spaced form text) (hb : b ∈ text) : b ∈ form ∨ isAsciiWhitespace b = true := by
  induction h with
  | nil => exact absurd hb List.not_mem_nil
  | keep c _ ih =>
    rcases List.mem_cons.mp hb with rfl | hb
    · exact .inl (List.mem_cons_self ..)
    · exact (ih hb).imp_left (List.mem_cons_of_mem c)
  | insert hc _ ih =>
    rcases List.mem_cons.mp hb with rfl | hb
    · exact .inr hc
    · exact ih hb

end Spaced

end Whitespace

section Formats

variable {engine} {form text wire : Bytes}

/-- The text form holds nothing but visible characters and whitespace. -/
theorem mem_base64 {b : UInt8} (h : b ∈ payload engine .base64 wire) :
    Base64.IsVisible b ∨ isAsciiWhitespace b = true := by
  rcases List.mem_append.mp h with hb | hb
  · exact .inl (engine.visible_of_mem_encode hb)
  · rw [List.mem_singleton.mp hb]
    exact .inr rfl

private theorem filter_encode : ((engine.encode wire).filter fun b => !isAsciiWhitespace b) =
    engine.encode wire := by
  apply List.filter_eq_self.mpr
  intro b hb
  rw [isAsciiWhitespace_of_visible (engine.visible_of_mem_encode hb)]
  rfl

private theorem filter_base64 :
    ((payload engine .base64 wire).filter fun b => !isAsciiWhitespace b) =
    engine.encode wire := by
  rw [payload, List.filter_append, filter_encode]
  exact List.append_nil _

/-- No spaced text is taken for a wire. -/
theorem head_ne_of_spaced (hspaced : Spaced form text)
    (hform : ∀ b ∈ form, Base64.IsVisible b ∨ isAsciiWhitespace b = true) :
    text.head? ≠ some 0x80 := by
  intro hhead
  have hmem : (0x80 : UInt8) ∈ text := List.mem_of_mem_head? hhead
  have hblank : ¬isAsciiWhitespace 0x80 = true := by decide
  rcases hspaced.mem hmem with hb | hb
  · rcases hform _ hb with hvisible | hb
    · exact absurd hvisible.2 (by decide)
    · exact hblank hb
  · exact hblank hb

/-- A text whose cleaned form is that of the wire is read as the wire. -/
theorem normalize_of_filter (hwire : wire.head? = some 0x80) (hhead : text.head? ≠ some 0x80)
    (hclean : (text.filter fun b => !isAsciiWhitespace b) = engine.encode wire) :
    normalizeSafebagBytes engine text = some wire := by
  rw [normalizeSafebagBytes, if_neg hhead]
  simp only [hclean, Base64.Engine.decode_encode, Option.filter_some, hwire, decide_true, if_true]

/-- A spaced text is read as its wire. -/
theorem normalize_spaced (hwire : wire.head? = some 0x80)
    (htext : Spaced (payload engine .base64 wire) text) :
    normalizeSafebagBytes engine text = some wire :=
  normalize_of_filter hwire (head_ne_of_spaced htext fun _ => mem_base64)
    (htext.filter_eq.trans filter_base64)

/-- Either format is read as its wire. -/
theorem normalize_payload (hwire : wire.head? = some 0x80) (format : WireFormat) :
    normalizeSafebagBytes engine (payload engine format wire) = some wire := by
  cases format with
  | raw => exact if_pos hwire
  | base64 => exact normalize_spaced hwire (Spaced.refl _)

/-- Whatever is read begins like a SafeBag. -/
theorem head_of_normalize {input : Bytes} (h : normalizeSafebagBytes engine input = some wire) :
    wire.head? = some 0x80 := by
  rw [normalizeSafebagBytes] at h
  split_ifs at h with hraw
  · rw [← Option.some.inj h]
    exact hraw
  · have hfilter := (Option.filter_eq_some_iff.mp h).2
    exact of_decide_eq_true hfilter

variable (engine)

/-- Export and import are inverse, in either format and however the text is wrapped. -/
theorem formats_inverse :
    (∀ wire, wire.head? = some 0x80 →
      (∀ format, normalizeSafebagBytes engine (payload engine format wire) = some wire) ∧
      ∀ text, Spaced (engine.encode wire) text ∨ Spaced (payload engine .base64 wire) text →
        normalizeSafebagBytes engine text = some wire) ∧
    ∀ input wire, normalizeSafebagBytes engine input = some wire → wire.head? = some 0x80 := by
  refine ⟨fun wire hwire => ⟨normalize_payload hwire, ?_⟩, fun _ _ => head_of_normalize⟩
  rintro text (htext | htext)
  · exact normalize_of_filter hwire
      (head_ne_of_spaced htext fun _ hb => .inl (engine.visible_of_mem_encode hb))
      (htext.filter_eq.trans filter_encode)
  · exact normalize_spaced hwire htext

/-- A SafeBag wrapped after two letters. -/
theorem canonical_formats_inverse :
    normalizeSafebagBytes (.canonical Base64.standard) [0x67, 0x41, 0x0D, 0x0A, 0x41, 0x3D, 0x0A] =
      some [0x80, 0x00] :=
  ((formats_inverse (.canonical Base64.standard)).1 [0x80, 0x00] rfl).2 _
    (.inl (.keep 0x67 (.keep 0x41 (.insert rfl (.insert rfl (.keep 0x41 (.keep 0x3D
      (.insert rfl .nil))))))))

end Formats

end NdnFwd.SafeBag
