import NdnFwd.Core.Utf8
import NdnFwd.Models.Keys.IdbPib

/-!
# The browser's key store as a store of keys

Seen from outside, the three stores of bytes are tables of SafeBags, passphrases and anchors under
names. A call answers from these tables and changes one of them, unless a request is refused: then
it says so and the tables are as before. Only `clear` can be cut short, and what it then leaves are
never SafeBags.
-/

namespace NdnFwd.IdbPib

variable {Bag Cert Signer : Type}

/-- The tables that the object stores stand for. -/
structure Pib (Bag : Type) where
  safebags : Table Name Bag
  passphrases : Table Name Bytes
  anchors : Table Name Bytes

namespace Pib

/-- Nothing is stored. -/
def blank : Pib Bag := ⟨∅, ∅, ∅⟩

section Meaning

variable (lib : Security Bag Cert Signer)

/-- The entries of a table in the order of the URIs of their names. -/
def listed {α : Type} (t : Table Name α) : List (Name × α) :=
  t.listing fun n n' => keyLe (lib.toString n) (lib.toString n')

/-- The signer of the SafeBag that is listed first. -/
def signer (p : Pib Bag) : Except IdbPibError (Option Signer) :=
  match listed lib p.safebags with
  | [] => .ok none
  | (keyName, bag) :: _ =>
    match p.passphrases.lookup keyName with
    | none => .error (passphraseMissing lib keyName)
    | some pw => (signerOf lib bag pw keyName).map some

/-- All anchors, or the first error. -/
def validator (p : Pib Bag) : Except IdbPibError (Option (List Cert)) :=
  match listed lib p.anchors with
  | [] => .ok none
  | entries => (entries.mapM fun e => anchorOf lib e.1 e.2).map some

/-- What a call answers. -/
def answer (p : Pib Bag) : Call Bag → Except IdbPibError (Answer Bag Cert Signer)
  | .putSafebag _ _ | .putPassphrase _ _ | .putAnchor _ _ | .clear => .ok .done
  | .getSafebag name => .ok (.safebag (p.safebags.lookup name))
  | .getPassphrase name => .ok (.bytes (p.passphrases.lookup name))
  | .getAnchor name => .ok (.bytes (p.anchors.lookup name))
  | .listAnchors => .ok (.names ((listed lib p.anchors).map Prod.fst))
  | .listSafebags => .ok (.names ((listed lib p.safebags).map Prod.fst))
  | .buildSigner => (signer lib p).map .signer
  | .buildValidator => (validator lib p).map .validator

/-- What a call leaves. -/
def after (p : Pib Bag) : Call Bag → Pib Bag
  | .putSafebag name bag => { p with safebags := p.safebags.insert name bag }
  | .putPassphrase name pw => { p with passphrases := p.passphrases.insert name pw }
  | .putAnchor name wire => { p with anchors := p.anchors.insert name wire }
  | .clear => blank
  | _ => p

/-- The answers of a session in which nothing is refused. -/
def answers (p : Pib Bag) : List (Call Bag) → List (Except IdbPibError (Answer Bag Cert Signer))
  | [] => []
  | call :: rest => answer lib p call :: answers (p.after call) rest

/-- One call, its answer and what it leaves, where requests may be refused for such reasons. -/
inductive Step (F : String → Prop) (p : Pib Bag) :
    Call Bag → Except IdbPibError (Answer Bag Cert Signer) → Pib Bag → Prop
  | answered (call : Call Bag) : Step F p call (answer lib p call) (p.after call)
  | refused (call : Call Bag) {why : String} (hwhy : F why) :
      Step F p call (.error (.request why)) p
  /-- The passphrases were not cleared. -/
  | interrupted {why : String} (hwhy : F why) :
      Step F p .clear (.error (.request why)) { p with safebags := ∅ }
  /-- The anchors were not cleared. -/
  | interruptedLate {why : String} (hwhy : F why) :
      Step F p .clear (.error (.request why)) { p with safebags := ∅, passphrases := ∅ }

variable {lib}

end Meaning

end Pib

/-- The names that a call mentions. -/
def Call.names : Call Bag → List Name
  | .putSafebag name _ | .getSafebag name | .putPassphrase name _ | .getPassphrase name
  | .putAnchor name _ | .getAnchor name => [name]
  | _ => []

section Refinement

variable {lib : Security Bag Cert Signer}

/-- The URI of the name is read back as the name. -/
def Readable (lib : Security Bag Cert Signer) (name : Name) : Prop :=
  lib.parse (lib.toString name) = some name

/-- The stores hold the tables, all under names that can be read back, and SafeBags that can be
decoded. -/
structure Represents (lib : Security Bag Cert Signer) (db : IdbDatabase) (p : Pib Bag) : Prop where
  safebags : Table.Relabels lib.toString lib.encode p.safebags (db .safebags)
  passphrases : Table.Relabels lib.toString id p.passphrases (db .passphrases)
  anchors : Table.Relabels lib.toString id p.anchors (db .anchors)
  readable_safebags : ∀ n ∈ p.safebags, Readable lib n
  readable_passphrases : ∀ n ∈ p.passphrases, Readable lib n
  readable_anchors : ∀ n ∈ p.anchors, Readable lib n
  decodable : ∀ bag ∈ p.safebags.values, lib.decode (lib.encode bag) = .ok bag

private theorem Readable.eq {n n' : Name} (h : Readable lib n) (h' : Readable lib n')
    (heq : lib.toString n' = lib.toString n) : n' = n := by
  have hread : some n' = some n := by rw [← h, ← h', heq]
  exact Option.some.inj hread

/-- A key that is read back is that of one name only. -/
theorem unshared {α : Type} {t : Table Name α} (ht : ∀ n ∈ t, Readable lib n) {name : Name}
    (hname : Readable lib name) : ∀ n ∈ t, lib.toString n = lib.toString name → n = name :=
  fun n hn heq => hname.eq (ht n hn) heq

section Listing

variable {α : Type} {t : Table Name α}

end Listing

variable {F : String → Prop} {db : IdbDatabase} {p : Pib Bag} {name : Name}

section Reading

end Reading

section Writing

/-- A SafeBag is put. -/
theorem Represents.putSafebag (h : Represents lib db p) (hname : Readable lib name) {bag : Bag}
    (hbag : lib.decode (lib.encode bag) = .ok bag) :
    Represents lib
      (fun s => if s = .safebags then (db s).insert (lib.toString name) (lib.encode bag) else db s)
      { p with safebags := p.safebags.insert name bag } where
  safebags := h.safebags.insert (unshared h.readable_safebags hname) bag
  passphrases := h.passphrases
  anchors := h.anchors
  readable_safebags n hn := by
    rcases (AList.mem_insert _).mp hn with rfl | hn
    · exact hname
    · exact h.readable_safebags n hn
  readable_passphrases := h.readable_passphrases
  readable_anchors := h.readable_anchors
  decodable b hb := by
    obtain ⟨e, he, rfl⟩ := List.mem_map.mp hb
    rw [AList.entries_insert] at he
    rcases List.mem_cons.mp he with rfl | he
    · exact hbag
    · exact h.decodable e.2 (List.mem_map_of_mem ((List.kerase_sublist _ _).subset he))

/-- A passphrase is put. -/
theorem Represents.putPassphrase (h : Represents lib db p) (hname : Readable lib name)
    (pw : Bytes) :
    Represents lib
      (fun s => if s = .passphrases then (db s).insert (lib.toString name) pw else db s)
      { p with passphrases := p.passphrases.insert name pw } where
  safebags := h.safebags
  passphrases := h.passphrases.insert (unshared h.readable_passphrases hname) pw
  anchors := h.anchors
  readable_safebags := h.readable_safebags
  readable_passphrases n hn := by
    rcases (AList.mem_insert _).mp hn with rfl | hn
    · exact hname
    · exact h.readable_passphrases n hn
  readable_anchors := h.readable_anchors
  decodable := h.decodable

/-- An anchor is put. -/
theorem Represents.putAnchor (h : Represents lib db p) (hname : Readable lib name)
    (wire : Bytes) :
    Represents lib
      (fun s => if s = .anchors then (db s).insert (lib.toString name) wire else db s)
      { p with anchors := p.anchors.insert name wire } where
  safebags := h.safebags
  passphrases := h.passphrases
  anchors := h.anchors.insert (unshared h.readable_anchors hname) wire
  readable_safebags := h.readable_safebags
  readable_passphrases := h.readable_passphrases
  readable_anchors n hn := by
    rcases (AList.mem_insert _).mp hn with rfl | hn
    · exact hname
    · exact h.readable_anchors n hn
  decodable := h.decodable

end Writing

/-- The name of one key. -/
def alice : Name := [.generic (asBytes "alice")]

end Refinement

section Companions

variable {lib : Security Bag Cert Signer} {F : String → Prop} {db : IdbDatabase}

/-- Every SafeBag has a passphrase beside it. -/
def Paired (db : IdbDatabase) : Prop := ∀ key ∈ db .safebags, key ∈ db .passphrases

end Companions

end NdnFwd.IdbPib
