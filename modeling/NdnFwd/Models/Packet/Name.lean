import NdnFwd.Core.Word

/-!
# Names, Interests and Data as the tools see them

Packets are taken after decoding. The typed components and the FinalBlockId
encoder belong to the packet library, which is not part of this repository. They
are a parameter, and what the tools rely on is stated as named laws.
-/

namespace NdnFwd

/-- TLV type of a `SegmentNameComponent`. -/
def TlvType.segment : Nat := 0x32

/-- TLV type of a `VersionNameComponent`. -/
def TlvType.version : Nat := 0x36

/-- One component of a name: its TLV type and its value. -/
structure NameComponent where
  /-- TLV type. -/
  typ : Nat
  /-- TLV value. -/
  value : Bytes
  deriving DecidableEq, Repr

/-- `NameComponent::generic`. -/
def NameComponent.generic (value : Bytes) : NameComponent := ⟨0x08, value⟩

/-- A name is the list of its components, root first. -/
abbrev Name := List NameComponent

/-- The fields of an Interest that the tools set or read. -/
structure Interest where
  /-- The requested name. -/
  name : Name
  /-- Whether Data under a longer name may answer. -/
  canBePrefix : Bool
  /-- InterestLifetime in milliseconds, when the sender set one. -/
  lifetime : Option Nat
  deriving DecidableEq, Repr

/-- The fields of a MetaInfo block that the tools set or read. -/
structure MetaInfo where
  /-- FreshnessPeriod in milliseconds. -/
  freshnessPeriod : Option Nat
  /-- FinalBlockId: an encoded name component. -/
  finalBlockId : Option Bytes
  deriving DecidableEq, Repr

/-- A Data packet. -/
structure Data where
  /-- The name it was published under. -/
  name : Name
  /-- MetaInfo, when the packet carries one. -/
  metaInfo : Option MetaInfo
  /-- Content, when the packet carries one. -/
  content : Option Bytes
  deriving DecidableEq, Repr

/-- `data.content().cloned().unwrap_or_else(Bytes::new)`. -/
def Data.contentOrEmpty (d : Data) : Bytes := d.content.getD []

/-- `data.meta_info().and_then(|mi| mi.final_block_id.as_ref())`. -/
def Data.finalBlockId (d : Data) : Option Bytes := d.metaInfo.bind MetaInfo.finalBlockId

/-- `name.components().last().map(|c| c.typ) == Some(SEGMENT)`. -/
def Data.EndsInSegment (d : Data) : Prop :=
  d.name.getLast?.map NameComponent.typ = some TlvType.segment

instance (d : Data) : Decidable d.EndsInSegment := inferInstanceAs (Decidable (_ = _))

/-- The Data a forwarder may return for an Interest. -/
def Interest.SatisfiedBy (i : Interest) (d : Data) : Prop :=
  d.name = i.name ∨ i.canBePrefix = true ∧ i.name <+: d.name

instance (i : Interest) (d : Data) : Decidable (i.SatisfiedBy d) :=
  inferInstanceAs (Decidable (_ ∨ _))

/-- The typed-component functions of the packet library. -/
structure PacketLib where
  /-- `NameComponent::as_segment`. -/
  asSegment : NameComponent → Option UInt64
  /-- The component that `Name::append_segment` appends. -/
  segment : UInt64 → NameComponent
  /-- `NameComponent::version`. -/
  version : UInt64 → NameComponent
  /-- The FinalBlockId that `DataBuilder::final_block_id_typed_seg` writes. -/
  finalBlockIdTypedSeg : UInt64 → Bytes

namespace PacketLib

/-- `Name::append_segment`. -/
def appendSegment (lib : PacketLib) (n : Name) (k : UInt64) : Name := n ++ [lib.segment k]

/-- `name.components().last().and_then(|c| c.as_segment())`. -/
def lastSegment (lib : PacketLib) (n : Name) : Option UInt64 := n.getLast?.bind lib.asSegment

/-- Segment components carry their number, and nothing else reads as one. -/
structure SegmentLaws (lib : PacketLib) : Prop where
  /-- `as_segment` inverts `append_segment`. -/
  asSegment_segment : ∀ k, lib.asSegment (lib.segment k) = some k
  /-- Only components of the segment type have a segment number. -/
  typ_of_asSegment : ∀ c k, lib.asSegment c = some k → c.typ = TlvType.segment

/-- FinalBlockId is the type byte, one length byte, and 1, 2, 4 or 8 big-endian bytes. -/
def FinalBlockLaw (lib : PacketLib) : Prop :=
  ∀ k, ∃ width ∈ [1, 2, 4, 8], k.toNat < 256 ^ width ∧
    lib.finalBlockIdTypedSeg k = 0x32 :: UInt8.ofNat width :: Word.beBytes width k.toNat

/-- An appended segment is the last one. -/
@[simp] theorem lastSegment_appendSegment {lib : PacketLib} (h : lib.SegmentLaws) (n : Name)
    (k : UInt64) : lib.lastSegment (lib.appendSegment n k) = some k := by
  simp only [lastSegment, appendSegment, List.getLast?_concat, Option.bind_some,
    h.asSegment_segment]

/-- A name under which a segment was appended determines the prefix and the number. -/
theorem appendSegment_inj {lib : PacketLib} (h : lib.SegmentLaws) {n n' : Name} {k k' : UInt64}
    (he : lib.appendSegment n k = lib.appendSegment n' k') : n = n' ∧ k = k' := by
  have hn := List.append_inj' he rfl
  have hk := congrArg (fun cs => cs.head?.bind lib.asSegment) hn.2
  simp only [List.head?_cons, Option.bind_some, h.asSegment_segment] at hk
  exact ⟨hn.1, Option.some.inj hk⟩

/-- A name with a segment number ends in a component of the segment type. -/
theorem getLast?_of_lastSegment {lib : PacketLib} (h : lib.SegmentLaws) {n : Name} {k : UInt64}
    (hk : lib.lastSegment n = some k) :
    ∃ c, n.getLast? = some c ∧ c.typ = TlvType.segment ∧ lib.asSegment c = some k := by
  obtain ⟨c, hc, hs⟩ := Option.bind_eq_some_iff.mp hk
  exact ⟨c, hc, h.typ_of_asSegment c k hs, hs⟩

/-- Number of bytes of a NonNegativeInteger. -/
def nniWidth (n : Nat) : Nat :=
  if n < 256 then 1 else if n < 256 ^ 2 then 2 else if n < 256 ^ 4 then 4 else 8

/-- The naming conventions as the packet format specifies them: values are
NonNegativeIntegers of 1, 2, 4 or 8 bytes. -/
def conventions : PacketLib where
  asSegment c :=
    if c.typ = TlvType.segment ∧ c.value.length ∈ [1, 2, 4, 8] then
      some (UInt64.ofNat (Word.beNat c.value))
    else none
  segment k := ⟨TlvType.segment, Word.beBytes (nniWidth k.toNat) k.toNat⟩
  version k := ⟨TlvType.version, Word.beBytes (nniWidth k.toNat) k.toNat⟩
  finalBlockIdTypedSeg k :=
    0x32 :: UInt8.ofNat (nniWidth k.toNat) :: Word.beBytes (nniWidth k.toNat) k.toNat

private theorem nniWidth_mem (n : Nat) : nniWidth n ∈ [1, 2, 4, 8] := by
  unfold nniWidth
  split_ifs <;> simp

private theorem lt_nniWidth (k : UInt64) : k.toNat < 256 ^ nniWidth k.toNat := by
  have hk : k.toNat < 256 ^ 8 := k.toNat_lt
  unfold nniWidth
  split_ifs <;> omega

/-- The value of a typed component spells its number. -/
theorem beNat_nni (k : UInt64) :
    Word.beNat (Word.beBytes (nniWidth k.toNat) k.toNat) = k.toNat := by
  rw [Word.beNat_beBytes, Nat.mod_eq_of_lt (lt_nniWidth k)]

/-- The usual components carry their number. -/
theorem conventions_segmentLaws : conventions.SegmentLaws where
  asSegment_segment k := by
    have hw := nniWidth_mem k.toNat
    simp only [conventions, Word.length_beBytes, hw, and_self, if_true, beNat_nni,
      UInt64.ofNat_toNat]
  typ_of_asSegment c k h := by
    simp only [conventions] at h
    split at h
    next hc => exact hc.1
    next => cases h

/-- The usual FinalBlockId is the encoded component. -/
theorem conventions_finalBlockLaw : conventions.FinalBlockLaw :=
  fun k => ⟨nniWidth k.toNat, nniWidth_mem _, lt_nniWidth k, rfl⟩

/-- Distinct timestamps give distinct version components. -/
theorem conventions_version_injective : Function.Injective conventions.version := by
  intro a b h
  have hv := congrArg (fun c => Word.beNat c.value) h
  simp only [conventions, beNat_nni] at hv
  exact UInt64.toNat.inj hv

end PacketLib

end NdnFwd
