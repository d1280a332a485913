import NdnFwd.Core.Protobuf
import NdnFwd.Core.Utf8

/-!
# The OTLP export request of the bridge

The bridge wraps spans that are already encoded in four nested messages. The
writers append to an output buffer as the source does; each appends exactly one
wire field, so the request decodes level by level to what went in.
-/

namespace NdnFwd.Otel

open Protobuf

section Writer

/-- `write_varint`. The value is a `u64`; the loop only shifts it down. -/
def writeVarint (out : Bytes) (v : Nat) : Bytes :=
  if v ≥ 0x80 then writeVarint (out ++ [(UInt8.ofNat v &&& 0x7F) ||| 0x80]) (v >>> 7)
  else out ++ [UInt8.ofNat v]
termination_by v
decreasing_by
  rw [Nat.shiftRight_eq_div_pow]
  omega

/-- `encode_len_prefixed`. -/
def encodeLenPrefixed (out : Bytes) (field : UInt32) (payload : Bytes) : Bytes :=
  let out := writeVarint out ((field <<< 3) ||| 2).toNat
  let out := writeVarint out payload.length
  out ++ payload

/-- `encode_resource`. -/
def encodeResource (serviceName : String) : Bytes :=
  let kv := encodeLenPrefixed [] 1 (asBytes "service.name")
  let any := encodeLenPrefixed [] 1 (asBytes serviceName)
  let kv := encodeLenPrefixed kv 2 any
  encodeLenPrefixed [] 1 kv

/-- `encode_export_request`. -/
def encodeExportRequest (serviceName : String) (spans : List Bytes) : Bytes :=
  let resource := encodeResource serviceName
  let scopeSpans := spans.foldl (fun out span => encodeLenPrefixed out 2 span) []
  let resourceSpans := encodeLenPrefixed [] 1 resource
  let resourceSpans := encodeLenPrefixed resourceSpans 2 scopeSpans
  encodeLenPrefixed [] 1 resourceSpans

/-- Seven low bits with the continuation bit set. -/
theorem continuation_byte (v : Nat) :
    (UInt8.ofNat v &&& 0x7F) ||| 0x80 = UInt8.ofNat (v % 128 + 128) := by
  apply UInt8.toNat_inj.mp
  have hlow : (0x7F : UInt8).toNat = 2 ^ 7 - 1 := rfl
  have hhigh : (0x80 : UInt8).toNat = 2 ^ 7 * 1 := rfl
  rw [UInt8.toNat_or, UInt8.toNat_and, UInt8.toNat_ofNat', UInt8.toNat_ofNat', hlow, hhigh,
    Nat.and_two_pow_sub_one_eq_mod, Nat.or_comm, ← Nat.two_pow_add_eq_or_of_lt (by omega)]
  omega

/-- The loop appends the shortest base-128 encoding. -/
theorem writeVarint_eq (out : Bytes) (v : Nat) : writeVarint out v = out ++ Varint.encode v := by
  induction v using Nat.strongRecOn generalizing out with
  | ind v ih =>
    rw [writeVarint]
    by_cases h : v ≥ 0x80
    · have hdiv : v >>> 7 = v / 128 := Nat.shiftRight_eq_div_pow v 7
      rw [if_pos h, hdiv, ih (v / 128) (by omega), continuation_byte, Varint.encode_of_le h,
        List.append_assoc]
      rfl
    · rw [if_neg h, Varint.encode_of_lt (Nat.lt_of_not_le h)]

/-- The tag of a length-delimited field. Field numbers have at most 29 bits. -/
theorem tag_toNat {field : UInt32} (h : field.toNat < 2 ^ 29) :
    ((field <<< 3) ||| 2).toNat = 8 * field.toNat + 2 := by
  have hthree : (3 : UInt32).toNat % 32 = 3 := rfl
  have htwo : (2 : UInt32).toNat = 2 := rfl
  have hor := Nat.two_pow_add_eq_or_of_lt (i := 3) (b := 2) (by omega) field.toNat
  rw [UInt32.toNat_or, UInt32.toNat_shiftLeft, hthree, htwo, Nat.shiftLeft_eq,
    Nat.mod_eq_of_lt (by omega), Nat.mul_comm, ← hor]

/-- One call appends one wire field. -/
theorem encodeLenPrefixed_eq {field : UInt32} (h : field.toNat < 2 ^ 29) (out payload : Bytes) :
    encodeLenPrefixed out field payload = out ++ lenField field.toNat payload := by
  rw [encodeLenPrefixed, writeVarint_eq, writeVarint_eq, tag_toNat h, lenField]
  simp only [List.append_assoc]

/-- The span loop appends one wire field a span. -/
theorem foldl_encodeLenPrefixed (spans : List Bytes) (out : Bytes) :
    spans.foldl (fun out span => encodeLenPrefixed out 2 span) out =
      out ++ encodeFields (spans.map fun span => (2, span)) := by
  induction spans generalizing out with
  | nil => exact (List.append_nil out).symm
  | cons span spans ih =>
    rw [List.foldl_cons, ih, encodeLenPrefixed_eq (by decide), List.map_cons, encodeFields_cons,
      List.append_assoc]
    rfl

/-- The attribute of the resource: its key and its `AnyValue`. -/
def serviceAttribute (serviceName : String) : Bytes :=
  encodeFields [(1, asBytes "service.name"), (2, encodeFields [(1, asBytes serviceName)])]

private theorem encodeResource_eq (serviceName : String) :
    encodeResource serviceName = encodeFields [(1, serviceAttribute serviceName)] := by
  have h1 : (1 : UInt32).toNat < 2 ^ 29 := by decide
  have h2 : (2 : UInt32).toNat < 2 ^ 29 := by decide
  simp only [encodeResource, encodeLenPrefixed_eq h1, encodeLenPrefixed_eq h2, serviceAttribute,
    encodeFields_cons, encodeFields_nil, List.append_nil, List.nil_append]
  rfl

/-- The request is three nested messages around the span list. -/
theorem encodeExportRequest_eq (serviceName : String) (spans : List Bytes) :
    encodeExportRequest serviceName spans =
      encodeFields [(1, encodeFields [(1, encodeResource serviceName),
        (2, encodeFields (spans.map fun span => (2, span)))])] := by
  have h1 : (1 : UInt32).toNat < 2 ^ 29 := by decide
  have h2 : (2 : UInt32).toNat < 2 ^ 29 := by decide
  rw [encodeExportRequest, foldl_encodeLenPrefixed]
  simp only [encodeLenPrefixed_eq h1, encodeLenPrefixed_eq h2, encodeFields_cons,
    encodeFields_nil, List.append_nil, List.nil_append]
  rfl

end Writer

section Reader

/-- A resource attribute whose value is a string. -/
structure KeyValue where
  /-- Attribute key. -/
  key : String
  /-- `AnyValue.string_value`. -/
  stringValue : String
  deriving DecidableEq, Repr

/-- Spans under the resource that produced them. -/
structure ResourceSpans where
  /-- Attributes of the `Resource`. -/
  attributes : List KeyValue
  /-- The span entries of each `ScopeSpans`. -/
  scopeSpans : List (List Bytes)
  deriving DecidableEq, Repr

/-- Read an `AnyValue` that holds a string. -/
def decodeAnyValue (bs : Bytes) : Option String := do
  let fields ← message [1] bs
  let value ← single 1 fields
  fromUtf8 value

/-- Read a `KeyValue`. -/
def decodeKeyValue (bs : Bytes) : Option KeyValue := do
  let fields ← message [1, 2] bs
  let key ← single 1 fields
  let key ← fromUtf8 key
  let value ← single 2 fields
  let value ← decodeAnyValue value
  some ⟨key, value⟩

/-- Read a `Resource`. -/
def decodeResource (bs : Bytes) : Option (List KeyValue) := do
  let fields ← message [1] bs
  (repeated 1 fields).mapM decodeKeyValue

/-- Read a `ScopeSpans`. The spans stay encoded. -/
def decodeScopeSpans (bs : Bytes) : Option (List Bytes) := do
  let fields ← message [2] bs
  some (repeated 2 fields)

/-- Read a `ResourceSpans`. -/
def decodeResourceSpans (bs : Bytes) : Option ResourceSpans := do
  let fields ← message [1, 2] bs
  let resource ← single 1 fields
  let attributes ← decodeResource resource
  let scopeSpans ← (repeated 2 fields).mapM decodeScopeSpans
  some ⟨attributes, scopeSpans⟩

/-- Read an `ExportTraceServiceRequest`. -/
def decodeExportRequest (bs : Bytes) : Option (List ResourceSpans) := do
  let fields ← message [1] bs
  (repeated 1 fields).mapM decodeResourceSpans

private theorem decodeAnyValue_encode (s : String) :
    decodeAnyValue (encodeFields [(1, asBytes s)]) = some s := by
  rw [decodeAnyValue, message_encodeFields (by simp)]
  simp [single, repeated]

private theorem decodeKeyValue_serviceAttribute (serviceName : String) :
    decodeKeyValue (serviceAttribute serviceName) = some ⟨"service.name", serviceName⟩ := by
  rw [decodeKeyValue, serviceAttribute, message_encodeFields (by simp)]
  simp [single, repeated, decodeAnyValue_encode]

private theorem decodeResource_encodeResource (serviceName : String) :
    decodeResource (encodeResource serviceName) = some [⟨"service.name", serviceName⟩] := by
  rw [decodeResource, encodeResource_eq, message_encodeFields (by simp)]
  simp [repeated, decodeKeyValue_serviceAttribute]

private theorem decodeScopeSpans_encode (spans : List Bytes) :
    decodeScopeSpans (encodeFields (spans.map fun span => (2, span))) = some spans := by
  rw [decodeScopeSpans, message_encodeFields (by simp)]
  simp [repeated, List.filter_map, Function.comp_def]

/-- The request decodes to one `ResourceSpans` that holds the service name and the spans, and
every `u64` is written as the shortest varint that reads back to it. -/
theorem exportRequest_roundtrip :
    (∀ (serviceName : String) (spans : List Bytes),
      decodeExportRequest (encodeExportRequest serviceName spans) =
        some [⟨[⟨"service.name", serviceName⟩], [spans]⟩]) ∧
    ∀ v : UInt64,
      Varint.read (writeVarint [] v.toNat) = some (v.toNat, []) ∧
        (writeVarint [] v.toNat).length ≤ 10 ∧
        ∀ bs, Varint.read bs = some (v.toNat, []) →
          (writeVarint [] v.toNat).length ≤ bs.length ∧
            (bs.length ≤ (writeVarint [] v.toNat).length → bs = writeVarint [] v.toNat) := by
  refine ⟨fun serviceName spans => ?_, fun v => ?_⟩
  · rw [decodeExportRequest, encodeExportRequest_eq, message_encodeFields (by simp)]
    have hspans : decodeResourceSpans (encodeFields [(1, encodeResource serviceName),
        (2, encodeFields (spans.map fun span => (2, span)))]) =
        some ⟨[⟨"service.name", serviceName⟩], [spans]⟩ := by
      rw [decodeResourceSpans, message_encodeFields (by simp)]
      simp [single, repeated, decodeResource_encodeResource, decodeScopeSpans_encode]
    simp [repeated, hspans]
  · rw [writeVarint_eq, List.nil_append]
    have hread := Varint.read_encode v.toNat []
    rw [List.append_nil] at hread
    refine ⟨hread, ?_, fun bs h => ?_⟩
    · have hlt : v.toNat < 128 ^ 10 := v.toNat_lt.trans (by decide)
      exact Varint.length_encode_le hlt
    · obtain ⟨used, rfl, hmin⟩ := Varint.encode_minimal h
      rwa [List.append_nil]

end Reader

end NdnFwd.Otel
