import NdnFwd.Core.Varint

/-!
# The protobuf wire format

A message is a sequence of fields, each a varint tag followed by a value whose
extent the tag determines. Reading a message consumes every byte or fails. A schema
that knows some length-delimited fields rejects everything else.
-/

namespace NdnFwd

namespace Protobuf

/-- The value of one field, under its wire type. -/
inductive WireValue
  /-- Wire type 0. -/
  | varint (n : Nat)
  /-- Wire type 1: eight bytes. -/
  | i64 (bs : Bytes)
  /-- Wire type 2: length-delimited. -/
  | len (bs : Bytes)
  /-- Wire type 5: four bytes. -/
  | i32 (bs : Bytes)
  deriving DecidableEq, Repr

/-- A numbered field. -/
structure Field where
  /-- Field number. -/
  number : Nat
  /-- Field value. -/
  value : WireValue
  deriving DecidableEq, Repr

/-- The first `n` bytes and the bytes after them. -/
def cut (n : Nat) (bs : Bytes) : Option (Bytes × Bytes) :=
  if n ≤ bs.length then some (bs.take n, bs.drop n) else none

/-- The value of a field of the given wire type. The group types are not supported. -/
def readValue (wireType : Nat) (bs : Bytes) : Option (WireValue × Bytes) :=
  match wireType with
  | 0 => (Varint.read bs).map fun r => (.varint r.1, r.2)
  | 1 => (cut 8 bs).map fun r => (.i64 r.1, r.2)
  | 2 => (Varint.read bs).bind fun l => (cut l.1 l.2).map fun r => (.len r.1, r.2)
  | 5 => (cut 4 bs).map fun r => (.i32 r.1, r.2)
  | _ => none

/-- One field and the bytes after it. Field number 0 is illegal. -/
def readField (bs : Bytes) : Option (Field × Bytes) :=
  (Varint.read bs).bind fun tag =>
    if tag.1 / 8 = 0 then none
    else (readValue (tag.1 % 8) tag.2).map fun r => (⟨tag.1 / 8, r.1⟩, r.2)

private theorem length_le_of_cut {n : Nat} {bs : Bytes} {r : Bytes × Bytes}
    (h : cut n bs = some r) :
    r.2.length ≤ bs.length := by
  simp only [cut, Option.ite_none_right_eq_some, Option.some.injEq] at h
  rw [← h.2, List.length_drop]
  exact Nat.sub_le _ _

private theorem length_le_of_readValue {wireType : Nat} {bs : Bytes} {r : WireValue × Bytes}
    (h : readValue wireType bs = some r) : r.2.length ≤ bs.length := by
  unfold readValue at h
  split at h
  · obtain ⟨v, hv, rfl⟩ := Option.map_eq_some_iff.mp h
    exact (Varint.length_lt_of_read hv).le
  · obtain ⟨v, hv, rfl⟩ := Option.map_eq_some_iff.mp h
    exact length_le_of_cut hv
  · obtain ⟨l, hl, h⟩ := Option.bind_eq_some_iff.mp h
    obtain ⟨v, hv, rfl⟩ := Option.map_eq_some_iff.mp h
    exact (length_le_of_cut hv).trans (Varint.length_lt_of_read hl).le
  · obtain ⟨v, hv, rfl⟩ := Option.map_eq_some_iff.mp h
    exact length_le_of_cut hv
  · cases h

private theorem length_lt_of_readField {bs : Bytes} {r : Field × Bytes}
    (h : readField bs = some r) :
    r.2.length < bs.length := by
  obtain ⟨tag, ht, h⟩ := Option.bind_eq_some_iff.mp h
  obtain ⟨-, h⟩ := (Option.ite_none_left_eq_some ..).mp h
  obtain ⟨v, hv, rfl⟩ := Option.map_eq_some_iff.mp h
  exact (length_le_of_readValue hv).trans_lt (Varint.length_lt_of_read ht)

/-- All fields of a message, in order. -/
def readFields (bs : Bytes) : Option (List Field) :=
  if bs = [] then some []
  else
    match h : readField bs with
    | none => none
    | some r =>
      have : r.2.length < bs.length := length_lt_of_readField h
      (readFields r.2).map (r.1 :: ·)
termination_by bs.length

/-- A length-delimited field as it stands on the wire. -/
def lenField (number : Nat) (payload : Bytes) : Bytes :=
  Varint.encode (8 * number + 2) ++ Varint.encode payload.length ++ payload

private theorem readField_lenField {number : Nat} (h : 0 < number) (payload rest : Bytes) :
    readField (lenField number payload ++ rest) = some (⟨number, .len payload⟩, rest) := by
  have hnum : (8 * number + 2) / 8 = number := by omega
  have htyp : (8 * number + 2) % 8 = 2 := by omega
  have hcut : cut payload.length (payload ++ rest) = some (payload, rest) := by
    rw [cut, if_pos (by simp), List.take_left, List.drop_left]
  rw [readField, lenField, List.append_assoc, List.append_assoc, Varint.read_encode,
    Option.bind_some, hnum, htyp, if_neg (Nat.ne_of_gt h), readValue, Varint.read_encode,
    Option.bind_some, hcut]
  rfl

/-- No bytes have no fields. -/
@[simp] theorem readFields_nil : readFields [] = some [] := by
  rw [readFields, if_pos rfl]

/-- A length-delimited field in front contributes its own entry and nothing else. -/
theorem readFields_lenField {number : Nat} (h : 0 < number) (payload rest : Bytes) :
    readFields (lenField number payload ++ rest) =
      (readFields rest).map (⟨number, .len payload⟩ :: ·) := by
  have hne : lenField number payload ++ rest ≠ [] := by
    intro he
    have hr := readField_lenField h payload rest
    rw [he] at hr
    cases hr
  rw [readFields, if_neg hne]
  split
  next hn =>
    rw [readField_lenField h] at hn
    cases hn
  next r hr =>
    rw [readField_lenField h] at hr
    obtain rfl := Option.some.inj hr
    rfl

section Schema

/-- A field that the schema knows and that is length-delimited. -/
def Field.known (numbers : List Nat) (f : Field) : Option (Nat × Bytes) :=
  match f.value with
  | .len bs => if f.number ∈ numbers then some (f.number, bs) else none
  | _ => none

/-- A message all of whose fields are length-delimited and known to the schema. -/
def message (numbers : List Nat) (bs : Bytes) : Option (List (Nat × Bytes)) :=
  (readFields bs).bind fun fs => fs.mapM (Field.known numbers)

/-- The payloads of a repeated field, in order. -/
def repeated (number : Nat) (fs : List (Nat × Bytes)) : List Bytes :=
  (fs.filter fun f => f.1 = number).map Prod.snd

/-- The payload of a field that occurs exactly once. -/
def single (number : Nat) (fs : List (Nat × Bytes)) : Option Bytes :=
  match repeated number fs with
  | [bs] => some bs
  | _ => none

/-- Fields on the wire, one after the other. -/
def encodeFields (fs : List (Nat × Bytes)) : Bytes := fs.flatMap fun f => lenField f.1 f.2

private theorem readFields_encodeFields {fs : List (Nat × Bytes)} (h : ∀ f ∈ fs, 0 < f.1) :
    readFields (encodeFields fs) = some (fs.map fun f => ⟨f.1, .len f.2⟩) := by
  induction fs with
  | nil => exact readFields_nil
  | cons f fs ih =>
    rw [encodeFields, List.flatMap_cons, readFields_lenField (h f (List.mem_cons_self ..)),
      ← encodeFields, ih fun g hg => h g (List.mem_cons_of_mem f hg)]
    rfl

private theorem mapM_known {numbers : List Nat} {fs : List (Nat × Bytes)}
    (h : ∀ f ∈ fs, f.1 ∈ numbers) :
    (fs.map fun f => (⟨f.1, .len f.2⟩ : Field)).mapM (Field.known numbers) = some fs := by
  induction fs with
  | nil => rfl
  | cons f fs ih =>
    have hf : Field.known numbers ⟨f.1, .len f.2⟩ = some f := if_pos (h f (List.mem_cons_self ..))
    rw [List.map_cons, List.mapM_cons, hf, ih fun g hg => h g (List.mem_cons_of_mem f hg)]
    rfl

/-- A message of known fields is read back entirely. -/
theorem message_encodeFields {numbers : List Nat} {fs : List (Nat × Bytes)}
    (h : ∀ f ∈ fs, 0 < f.1 ∧ f.1 ∈ numbers) : message numbers (encodeFields fs) = some fs := by
  rw [message, readFields_encodeFields fun f hf => (h f hf).1, Option.bind_some]
  exact mapM_known fun f hf => (h f hf).2

/-- No fields have no bytes. -/
theorem encodeFields_nil : encodeFields [] = [] := rfl

/-- Fields are written one after the other. -/
theorem encodeFields_cons (f : Nat × Bytes) (fs : List (Nat × Bytes)) :
    encodeFields (f :: fs) = lenField f.1 f.2 ++ encodeFields fs := rfl

end Schema

end Protobuf

end NdnFwd
