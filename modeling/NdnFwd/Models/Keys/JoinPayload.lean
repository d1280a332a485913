import NdnFwd.Core.Base64
import NdnFwd.Core.Digits
import NdnFwd.Core.Query
import NdnFwd.Core.Text

/-!
# The join payload

A trust context travels as one line of text: a tag, the version of the context and its encoded
content in base64, between colons. Neither field can contain a colon or a blank, so the line can
be cut out of what a scanner reads around it and taken apart again without loss.
-/

namespace NdnFwd.TrustContext

open Text

/-- `ENVELOPE_TAG`. -/
def envelopeTag : String := "ndn-ctx:1"

/-- `str::strip_prefix`. -/
def stripTag (tag text : List Char) : Option (List Char) :=
  if tag <+: text then some (text.drop tag.length) else none

variable (engine : Base64.Engine Base64.urlSafeNoPad)

/-- `encode_envelope`. -/
def encodeEnvelope (version : UInt64) (content : Bytes) : String :=
  let b64 := engine.encode content
  envelopeTag ++ ":" ++ String.ofList (ascii (Digits.decimal version.toNat)) ++ ":" ++
    String.ofList (ascii b64)

/-- `parse_envelope`. An error is what its caller shows. -/
def parseEnvelope (s : String) : Except String (UInt64 × Bytes) :=
  match stripTag (envelopeTag ++ ":").toList (Text.trim s.toList) with
  | none => .error ("not an `" ++ envelopeTag ++ "` join payload")
  | some rest =>
    match Query.splitOnce ':' rest with
    | none => .error "missing version/content separator"
    | some (ver, b64) =>
      match Digits.parse 64 (Text.utf8 ver) with
      | none => .error "context version"
      | some version =>
        match engine.decode (Text.utf8 (Text.trim b64)) with
        | none => .error "base64 content"
        | some content => .ok (UInt64.ofNat version, content)

/-- Nothing but whitespace. -/
def IsBlank (w : String) : Prop := ∀ c ∈ w.toList, Text.isWhitespace c = true

section Text

variable {bs : Bytes} {text before after : List Char}

private theorem stripTag_append (tag text : List Char) :
    stripTag tag (tag ++ text) = some text := by
  rw [stripTag, if_pos (List.prefix_append tag text), List.drop_left]

private theorem visible_of_mem_ascii (h : ∀ b ∈ bs, Base64.IsVisible b) {c : Char}
    (hc : c ∈ ascii bs) :
    0x21 ≤ c.toNat ∧ c.toNat ≤ 0x7E := by
  obtain ⟨b, hb, rfl⟩ := List.mem_map.mp hc
  rw [toNat_ofUInt8]
  exact h b hb

/-- Visible text is read as it was written. -/
theorem utf8_ascii_of_visible (h : ∀ b ∈ bs, Base64.IsVisible b) : Text.utf8 (ascii bs) = bs := by
  apply utf8_ascii
  intro b hb
  have hhigh := (h b hb).2
  omega

end Text

section Envelope

variable {engine} {version : UInt64} {content : Bytes}

private theorem visible_decimal (n : Nat) : ∀ b ∈ Digits.decimal n, Base64.IsVisible b := by
  intro b hb
  have hdigit := Digits.mem_decimal hb
  exact ⟨by omega, by omega⟩

/-- No digit is the separator. -/
theorem colon_notMem_decimal (n : Nat) : ':' ∉ ascii (Digits.decimal n) := by
  intro h
  obtain ⟨b, hb, hcolon⟩ := List.mem_map.mp h
  have hdigit := Digits.mem_decimal hb
  have hb' : b.toNat = 0x3A := by
    rw [← toNat_ofUInt8, hcolon]
    rfl
  omega

private theorem toList_encodeEnvelope : (encodeEnvelope engine version content).toList =
    (envelopeTag ++ ":").toList ++ (ascii (Digits.decimal version.toNat) ++
      ':' :: ascii (engine.encode content)) := by
  simp [encodeEnvelope]

private theorem visible_tag {c : Char} (hc : c ∈ (envelopeTag ++ ":").toList) :
    0x21 ≤ c.toNat ∧ c.toNat ≤ 0x7E := by
  have hall : ((envelopeTag ++ ":").toList.all fun d => 0x21 ≤ d.toNat && d.toNat ≤ 0x7E) = true :=
    rfl
  simpa using List.all_eq_true.mp hall c hc

/-- Neither the tag nor a field contains whitespace. -/
theorem isWhitespace_of_mem_envelope {c : Char}
    (hc : c ∈ (encodeEnvelope engine version content).toList) : Text.isWhitespace c = false := by
  apply isWhitespace_of_visible
  rw [toList_encodeEnvelope, List.mem_append, List.mem_append, List.mem_cons] at hc
  rcases hc with hc | hc | rfl | hc
  · exact visible_tag hc
  · exact visible_of_mem_ascii (visible_decimal _) hc
  · decide
  · exact visible_of_mem_ascii (fun _ => engine.visible_of_mem_encode) hc

/-- The fields of an envelope are read back, whatever whitespace stands around it. -/
theorem parseEnvelope_encodeEnvelope {before after : String} (hbefore : IsBlank before)
    (hafter : IsBlank after) :
    parseEnvelope engine (before ++ encodeEnvelope engine version content ++ after) =
      .ok (version, content) := by
  have htrim : Text.trim (before ++ encodeEnvelope engine version content ++ after).toList =
      (encodeEnvelope engine version content).toList := by
    rw [String.toList_append, String.toList_append]
    exact trim_append hbefore hafter fun _ => isWhitespace_of_mem_envelope
  have hb64 : Text.trim (ascii (engine.encode content)) = ascii (engine.encode content) :=
    trim_eq_self fun _ hc => isWhitespace_of_visible
      (visible_of_mem_ascii (fun _ => engine.visible_of_mem_encode) hc)
  have hversion : Digits.parse 64 (Digits.decimal version.toNat) = some version.toNat :=
    Digits.parse_decimal version.toNat_lt
  rw [parseEnvelope, htrim, toList_encodeEnvelope, stripTag_append]
  simp only [Query.splitOnce_append (colon_notMem_decimal _),
    utf8_ascii_of_visible (visible_decimal _), hversion, hb64,
    utf8_ascii_of_visible fun _ => engine.visible_of_mem_encode, Base64.Engine.decode_encode,
    UInt64.ofNat_toNat]

private theorem parseEnvelope_encodeEnvelope_self :
    parseEnvelope engine (encodeEnvelope engine version content) = .ok (version, content) := by
  have hempty : IsBlank "" := by simp [IsBlank]
  have h : parseEnvelope engine ("" ++ encodeEnvelope engine version content ++ "") =
      .ok (version, content) := parseEnvelope_encodeEnvelope hempty hempty
  rwa [String.empty_append, String.append_empty] at h

variable (engine)

/-- The envelope is lossless and unambiguous. -/
theorem envelope_lossless :
    (∀ version content before after, IsBlank before → IsBlank after →
      parseEnvelope engine (before ++ encodeEnvelope engine version content ++ after) =
        .ok (version, content)) ∧
    Function.Injective2 (encodeEnvelope engine) ∧
    ∀ s version content, parseEnvelope engine s = .ok (version, content) →
      parseEnvelope engine (encodeEnvelope engine version content) = .ok (version, content) := by
  refine ⟨fun _ _ _ _ => parseEnvelope_encodeEnvelope, ?_,
    fun _ _ _ _ => parseEnvelope_encodeEnvelope_self⟩
  intro version version' content content' h
  have hparse : parseEnvelope engine (encodeEnvelope engine version content) =
      .ok (version, content) := parseEnvelope_encodeEnvelope_self
  rw [h, parseEnvelope_encodeEnvelope_self] at hparse
  have hpair := Except.ok.inj hparse
  exact ⟨(congrArg Prod.fst hpair).symm, (congrArg Prod.snd hpair).symm⟩

/-- A payload with blanks around it. -/
theorem canonical_envelope_lossless :
    parseEnvelope (.canonical Base64.urlSafeNoPad)
      (" " ++ encodeEnvelope (.canonical Base64.urlSafeNoPad) 3 [0xFF, 0xFE] ++ "\n") =
        .ok (3, [0xFF, 0xFE]) :=
  (envelope_lossless (.canonical Base64.urlSafeNoPad)).1 3 [0xFF, 0xFE] " " "\n"
    (by simp [IsBlank, Text.isWhitespace]) (by simp [IsBlank, Text.isWhitespace])

-- more is read than is written
example : parseEnvelope (.canonical Base64.urlSafeNoPad) "ndn-ctx:1:+3: __4" =
    .ok (3, [0xFF, 0xFE]) := rfl

end Envelope

end NdnFwd.TrustContext
