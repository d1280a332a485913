import NdnFwd.Core.LongestMatch
import NdnFwd.Models.Startup.Config

/-!
# Demand keys and decision contexts of a radio face

The control plane of a radio face asks for the key of a packet by its raw component values.
The closure makes generic components of them and looks the name up; the contexts it decides
for are keyed by the names in the FIB. Types take no part in the key, but they do in the
lookup, so a name whose types matter to the FIB can get another key than its entry, or none.
-/

namespace NdnFwd.Radio

/-- `FibNexthop`. -/
structure FibNexthop where
  faceId : FaceId
  cost : Nat
  deriving DecidableEq, Repr

/-- `FibEntry`. -/
structure FibEntry where
  nexthops : List FibNexthop
  deriving DecidableEq, Repr

/-- The engine's FIB in one state. -/
structure Fib where
  lpmWithDepth : Name → Option (Nat × FibEntry)
  dump : List (Name × FibEntry)

/-- What is documented of the FIB: a lookup returns the entry under the longest stored prefix,
and its length; a dump lists all entries. -/
def Fib.Lawful (fib : Fib) : Prop :=
  ∀ name depth entry, fib.lpmWithDepth name = some (depth, entry) ↔
    IsLongest fib.dump name depth entry

/-- The context of one prefix, by its key. -/
structure NameContext where
  prefixHash : UInt64
  deriving DecidableEq, Repr

/-- `e.nexthops.iter().any(|n| n.face_id == face)`. -/
def FibEntry.routesTo (e : FibEntry) (face : FaceId) : Bool :=
  e.nexthops.any fun n => n.faceId = face

/-- The name as it is rebuilt from its values. -/
def rebuilt (comps : List Bytes) : Name := comps.map NameComponent.generic

/-- The values of a name. -/
def rawValues (name : Name) : List Bytes := name.map NameComponent.value

section Keys

variable (prefixHash : List Bytes → UInt64) (fib : Fib) (face : FaceId)

/-- The closure given to `set_prefix_key`. -/
def prefixKey (comps : List Bytes) : Option UInt64 :=
  match fib.lpmWithDepth (rebuilt comps) with
  | none => none
  | some (depth, entry) =>
    if entry.routesTo face then some (prefixHash (comps.take depth)) else none

/-- `name_prefix_hash`. -/
def namePrefixHash (name : Name) : UInt64 := prefixHash (rawValues name)

/-- `active_contexts`. -/
def activeContexts (entries : List (Name × FibEntry)) : List NameContext :=
  let ctxs := (entries.filter fun e => e.2.routesTo face).map fun e =>
    ⟨namePrefixHash prefixHash e.1⟩
  if ctxs.isEmpty then [⟨prefixHash [[0x2F]]⟩] else ctxs

/-- The longest stored prefix of the name has `depth` components and a nexthop on the face. -/
def Routed (name : Name) (depth : Nat) : Prop :=
  ∃ entry, IsLongest fib.dump name depth entry ∧ entry.routesTo face = true

/-- A packet gets the key of the entry that routes it to the face, which is the key of one of
the contexts, and no key if there is no such entry. -/
def Aligned (name : Name) : Prop :=
  (∀ depth, Routed fib face name depth →
    prefixKey prefixHash fib face (rawValues name) =
        some (namePrefixHash prefixHash (name.take depth)) ∧
      namePrefixHash prefixHash (name.take depth) ∈
        (activeContexts prefixHash face fib.dump).map NameContext.prefixHash) ∧
    ((∀ depth, ¬Routed fib face name depth) →
      prefixKey prefixHash fib face (rawValues name) = none)

/-- Reading every component as generic does not change the key under which the name is routed
to the face, or that it is not. -/
def TypeBlind (name : Name) : Prop :=
  ∀ key, (∃ depth, Routed fib face name depth ∧
      namePrefixHash prefixHash (name.take depth) = key) ↔
    ∃ depth, Routed fib face (rebuilt (rawValues name)) depth ∧
      namePrefixHash prefixHash (name.take depth) = key

end Keys

variable {prefixHash : List Bytes → UInt64} {fib : Fib} {face : FaceId} {name : Name}

/-- The key that the closure computes. -/
theorem prefixKey_eq_some_iff (hfib : fib.Lawful) {key : UInt64} :
    prefixKey prefixHash fib face (rawValues name) = some key ↔
      ∃ depth, Routed fib face (rebuilt (rawValues name)) depth ∧
        namePrefixHash prefixHash (name.take depth) = key := by
  have htake : ∀ depth, (rawValues name).take depth = rawValues (name.take depth) :=
    fun depth => List.map_take.symm
  unfold prefixKey
  cases hlpm : fib.lpmWithDepth (rebuilt (rawValues name)) with
  | none =>
    have hnot : ∀ depth, ¬Routed fib face (rebuilt (rawValues name)) depth := by
      rintro depth ⟨entry, hlongest, -⟩
      rw [(hfib _ _ _).mpr hlongest] at hlpm
      cases hlpm
    simp [hnot]
  | some found =>
    obtain ⟨depth, entry⟩ := found
    have hlongest := (hfib _ _ _).mp hlpm
    simp only [htake, Option.ite_none_right_eq_some, Option.some.injEq]
    constructor
    · rintro ⟨hroutes, hkey⟩
      exact ⟨depth, ⟨entry, hlongest, hroutes⟩, hkey⟩
    · rintro ⟨depth', ⟨entry', hlongest', hroutes⟩, hkey⟩
      have hfound := (hfib _ _ _).mpr hlongest'
      rw [hlpm] at hfound
      obtain ⟨rfl, rfl⟩ := Prod.mk.inj (Option.some.inj hfound)
      exact ⟨hroutes, hkey⟩

/-- The key of every entry that routes to the face is the key of a context. -/
theorem mem_activeContexts {depth : Nat} (h : Routed fib face name depth) :
    namePrefixHash prefixHash (name.take depth) ∈
      (activeContexts prefixHash face fib.dump).map NameContext.prefixHash := by
  obtain ⟨entry, hlongest, hroutes⟩ := h
  have hctx : (⟨namePrefixHash prefixHash (name.take depth)⟩ : NameContext) ∈
      (fib.dump.filter fun e => e.2.routesTo face).map fun e =>
        (⟨namePrefixHash prefixHash e.1⟩ : NameContext) :=
    List.mem_map_of_mem (f := fun e : Name × FibEntry =>
      (⟨namePrefixHash prefixHash e.1⟩ : NameContext))
      (List.mem_filter.mpr ⟨hlongest.stored, hroutes⟩)
  have hne := List.isEmpty_eq_false_iff.mpr (List.ne_nil_of_mem hctx)
  simp only [activeContexts, hne, Bool.false_eq_true, if_false]
  exact List.mem_map_of_mem hctx

/-- Key and context are aligned exactly where the types of the components make no difference. -/
theorem aligned_iff (prefixHash : List Bytes → UInt64) (fib : Fib) (hfib : fib.Lawful)
    (face : FaceId) (name : Name) :
    Aligned prefixHash fib face name ↔ TypeBlind prefixHash fib face name := by
  have hkey : ∀ key, prefixKey prefixHash fib face (rawValues name) = some key ↔
      ∃ depth, Routed fib face (rebuilt (rawValues name)) depth ∧
        namePrefixHash prefixHash (name.take depth) = key := fun _ => prefixKey_eq_some_iff hfib
  constructor
  · rintro ⟨hsome, hnone⟩ key
    rw [← hkey]
    constructor
    · rintro ⟨depth, hrouted, rfl⟩
      exact (hsome depth hrouted).1
    · intro hgot
      by_cases hrouted : ∃ depth, Routed fib face name depth
      · obtain ⟨depth, hrouted⟩ := hrouted
        exact ⟨depth, hrouted, Option.some.inj ((hsome depth hrouted).1.symm.trans hgot)⟩
      · rw [hnone fun depth h => hrouted ⟨depth, h⟩] at hgot
        cases hgot
  · intro hblind
    refine ⟨fun depth hrouted => ⟨?_, mem_activeContexts hrouted⟩, fun hnot => ?_⟩
    · exact (hkey _).mpr ((hblind _).mp ⟨depth, hrouted, rfl⟩)
    · rw [Option.eq_none_iff_forall_ne_some]
      intro key hgot
      obtain ⟨depth, hrouted, -⟩ := (hblind key).mpr ((hkey key).mp hgot)
      exact hnot depth hrouted

/-- A name of generic components is what it is rebuilt to. -/
theorem rebuilt_rawValues (h : ∀ c ∈ name, c = .generic c.value) :
    rebuilt (rawValues name) = name := by
  rw [rebuilt, rawValues, List.map_map]
  calc name.map (NameComponent.generic ∘ NameComponent.value)
      = name.map id := List.map_congr_left fun c hc => (h c hc).symm
    _ = name := List.map_id name

private theorem typeBlind_of_generic (h : ∀ c ∈ name, c = .generic c.value) :
    TypeBlind prefixHash fib face name := by
  intro key
  rw [rebuilt_rawValues h]

section Samples

/-- FNV-1a with 64 bits, over the bytes of all components. -/
def fnv1a (comps : List Bytes) : UInt64 :=
  comps.flatten.foldl (fun h b => (h ^^^ b.toUInt64) * 0x100000001b3) 0xcbf29ce484222325

/-- A FIB kept as a list. -/
def listFib (entries : List (Name × FibEntry)) : Fib := ⟨longestMatch entries, entries⟩

private theorem listFib_lawful {entries : List (Name × FibEntry)}
    (h : (entries.map Prod.fst).Nodup) :
    (listFib entries).Lawful := fun _ _ _ => longestMatch_eq_some_iff h

/-- One prefix, routed to the radio face. -/
def radioFib (stored : Name) : Fib := listFib [(stored, ⟨[⟨⟨7⟩, 0⟩]⟩)]

private theorem radioFib_lawful (stored : Name) : (radioFib stored).Lawful :=
  listFib_lawful (List.nodup_singleton stored)

/-- The name `/a/b` under the prefix `/a`. -/
theorem radioFib_aligned :
    Aligned fnv1a (radioFib [⟨8, [0x61]⟩]) ⟨7⟩ [⟨8, [0x61]⟩, ⟨8, [0x62]⟩] :=
  (aligned_iff fnv1a _ (radioFib_lawful _) ⟨7⟩ _).mpr (typeBlind_of_generic (by decide))

/-- A packet under the prefix `/a/v=1` itself gets no key: its version is looked up as a generic
component. -/
theorem radioFib_not_aligned :
    (radioFib [⟨8, [0x61]⟩, ⟨TlvType.version, [1]⟩]).Lawful ∧
      ¬Aligned fnv1a (radioFib [⟨8, [0x61]⟩, ⟨TlvType.version, [1]⟩]) ⟨7⟩
        [⟨8, [0x61]⟩, ⟨TlvType.version, [1]⟩, ⟨8, [0x62]⟩] := by
  refine ⟨radioFib_lawful _, fun haligned => ?_⟩
  have hlongest : IsLongest (radioFib [⟨8, [0x61]⟩, ⟨TlvType.version, [1]⟩]).dump
      [⟨8, [0x61]⟩, ⟨TlvType.version, [1]⟩, ⟨8, [0x62]⟩] 2 ⟨[⟨⟨7⟩, 0⟩]⟩ :=
    (radioFib_lawful _ _ _ _).mp (by decide)
  have hkey := (haligned.1 2 ⟨_, hlongest, rfl⟩).1
  have hnone : prefixKey fnv1a (radioFib [⟨8, [0x61]⟩, ⟨TlvType.version, [1]⟩]) ⟨7⟩
      (rawValues [⟨8, [0x61]⟩, ⟨TlvType.version, [1]⟩, ⟨8, [0x62]⟩]) = none := by decide
  rw [hnone] at hkey
  cases hkey

end Samples

end NdnFwd.Radio
