import Mathlib.Algebra.Order.BigOperators.Group.List
import Mathlib.Data.List.Nodup
import Mathlib.Data.List.Perm.Basic
import NdnFwd.Models.Acme.Issue

/-!
# An order and the zone it writes to

`CloudflareDnsProvider` looks a record up by its name and takes the first one listed: to place a
record it overwrites that one, to remove it it deletes that one. A name may have several records,
and the order does not know which of them are its own.
-/

namespace NdnFwd.Acme

/-- A TXT record as the zone lists it. -/
structure ZoneRecord where
  id : String
  name : String
  content : String
  ttl : Nat
  deriving DecidableEq, Repr

/-- The body of a request to write a record. -/
def DnsRecord.listed (r : DnsRecord) (id : String) : ZoneRecord := ⟨id, r.name, r.value, r.ttl⟩

/-- The zone behind the API. -/
structure ZoneApi (ζ : Type*) where
  /-- The TXT records, in the order in which they are listed. -/
  records : ζ → List ZoneRecord
  put : String → DnsRecord → ζ → ζ
  post : DnsRecord → ζ → ζ
  delete : String → ζ → ζ

/-- What the API promises: records have distinct ids, and a request touches one record. -/
structure ZoneApi.Lawful {ζ : Type*} (api : ZoneApi ζ) : Prop where
  nodup : ∀ z, ((api.records z).map ZoneRecord.id).Nodup
  put : ∀ id r z, api.records (api.put id r z) =
    (api.records z).map fun e => if e.id = id then r.listed id else e
  post : ∀ r z, ∃ id, (api.records (api.post r z)).Perm (r.listed id :: api.records z)
  delete : ∀ id z, api.records (api.delete id z) = (api.records z).filter fun e => e.id ≠ id

/-- What comes of the request for the records of a name. An answer without a `result` is not taken
for an error. -/
inductive Lookup
  | listed
  | noResult
  | failed (e : String)
  deriving DecidableEq, Repr

/-- What comes of the request that writes. One that fails may have been carried out. -/
inductive Write
  | done
  | failed (e : String) (applied : Bool)
  deriving DecidableEq, Repr

/-- How the API answers during one call of the provider. -/
structure Weather where
  lookup : Lookup
  write : Write
  deriving DecidableEq, Repr

/-- Every request is answered. -/
def Weather.calm : Weather := ⟨.listed, .done⟩

/-- `params`, as far as the provider reads them. -/
structure CloudflareParams where
  apiToken : Option String
  zoneId : Option String
  deriving DecidableEq, Repr

/-- `token_zone`. -/
def CloudflareParams.tokenZone (params : CloudflareParams) : Except String (String × String) :=
  match params.apiToken with
  | none => .error "missing api_token"
  | some token =>
    match params.zoneId with
    | none => .error "missing zone_id"
    | some zone => .ok (token, zone)

namespace ZoneApi

variable {ζ : Type*} (api : ZoneApi ζ)

/-- The first record of a name. -/
def first (name : String) (z : ζ) : Option ZoneRecord :=
  (api.records z).find? fun e => e.name = name

/-- `find_record`. -/
def findRecord (name : String) (z : ζ) : Lookup → Except String (Option String)
  | .listed => .ok ((api.first name z).map ZoneRecord.id)
  | .noResult => .ok none
  | .failed e => .error e

/-- A request that writes. -/
def write (f : ζ → ζ) (z : ζ) : Write → Except String Unit × ζ
  | .done => (.ok (), f z)
  | .failed e applied => (.error e, if applied then f z else z)

/-- `upsert_txt`. -/
def upsertTxt (params : CloudflareParams) (record : DnsRecord) (w : Weather) (z : ζ) :
    Except String Unit × ζ :=
  match params.tokenZone with
  | .error e => (.error e, z)
  | .ok _ =>
    match api.findRecord record.name z w.lookup with
    | .error e => (.error e, z)
    | .ok (some id) => write (api.put id record) z w.write
    | .ok none => write (api.post record) z w.write

/-- `delete_txt`. -/
def deleteTxt (params : CloudflareParams) (record : DnsRecord) (w : Weather) (z : ζ) :
    Except String Unit × ζ :=
  match params.tokenZone with
  | .error e => (.error e, z)
  | .ok _ =>
    match api.findRecord record.name z w.lookup with
    | .error e => (.error e, z)
    | .ok none => (.ok (), z)
    | .ok (some id) => write (api.delete id) z w.write

/-- How many records a name has. -/
def count (z : ζ) (name : String) : Nat := (api.records z).countP fun e => e.name = name

end ZoneApi

section Requests

variable {ζ : Type*} {api : ZoneApi ζ} (hapi : api.Lawful) {z : ζ} {name : String} {e : ZoneRecord}

private theorem first_spec (h : api.first name z = some e) : e ∈ api.records z ∧ e.name = name :=
  ⟨List.mem_of_find?_eq_some h, by simpa using List.find?_some h⟩

private theorem first_eq_none_iff : api.first name z = none ↔ api.count z name = 0 := by
  rw [ZoneApi.first, ZoneApi.count, List.find?_eq_none, List.countP_eq_zero]

include hapi in
/-- Overwriting the record of a name leaves every name as many records. -/
theorem count_put (r : DnsRecord) (he : e ∈ api.records z) (hname : e.name = r.name) :
    api.count (api.put e.id r z) = api.count z := by
  ext n
  have hids := List.inj_on_of_nodup_map (hapi.nodup z)
  rw [ZoneApi.count, hapi.put, List.countP_map]
  refine List.countP_congr fun e' he' => ?_
  simp only [Function.comp]
  split_ifs with hid
  · rw [hids he' he hid, DnsRecord.listed, hname]
  · rfl

include hapi in
private theorem count_post (r : DnsRecord) (z : ζ) (n : String) :
    api.count (api.post r z) n = api.count z n + if r.name = n then 1 else 0 := by
  obtain ⟨id, hperm⟩ := hapi.post r z
  rw [ZoneApi.count, hperm.countP_eq, List.countP_cons]
  by_cases hn : r.name = n <;> simp [ZoneApi.count, DnsRecord.listed, hn]

include hapi in
/-- Deleting a record leaves the others. -/
theorem count_delete (he : e ∈ api.records z) (n : String) :
    api.count (api.delete e.id z) n + (if e.name = n then 1 else 0) = api.count z n := by
  have hids := hapi.nodup z
  obtain ⟨before, later, hsplit⟩ := List.append_of_mem he
  rw [hsplit, List.map_append, List.map_cons, List.nodup_middle, List.nodup_cons,
    ← List.map_append] at hids
  have hother : ∀ e' ∈ before ++ later, e'.id ≠ e.id := fun e' he' hid =>
    hids.1 (hid ▸ List.mem_map_of_mem he')
  have hbefore : before.filter (fun e' => e'.id ≠ e.id) = before :=
    List.filter_eq_self.mpr fun e' he' => by simpa using hother e' (List.mem_append_left _ he')
  have hlater : later.filter (fun e' => e'.id ≠ e.id) = later :=
    List.filter_eq_self.mpr fun e' he' => by simpa using hother e' (List.mem_append_right _ he')
  have hgone : (e :: later).filter (fun e' => e'.id ≠ e.id) = later := by
    rw [List.filter_cons_of_neg (by simp), hlater]
  simp only [ZoneApi.count]
  rw [hapi.delete, hsplit, List.filter_append, hbefore, hgone, List.countP_append,
    List.countP_append, List.countP_cons]
  simp only [decide_eq_true_eq]
  omega

/-- The zone after a call of the provider: as it was, or after one request that concerns records of
the name only. -/
inductive ZoneApi.Moves (api : ZoneApi ζ) (r : DnsRecord) (z : ζ) : ζ → Prop
  | same : api.Moves r z z
  | put {e : ZoneRecord} (he : api.first r.name z = some e) : api.Moves r z (api.put e.id r z)
  | post : api.Moves r z (api.post r z)
  | delete {e : ZoneRecord} (he : api.first r.name z = some e) : api.Moves r z (api.delete e.id z)

/-- A write that may fail. -/
theorem ZoneApi.Moves.write {r : DnsRecord} {f : ζ → ζ} (h : api.Moves r z (f z)) (w : Write) :
    api.Moves r z (write f z w).2 := by
  cases w with
  | done => exact h
  | failed e applied =>
    cases applied with
    | true => exact h
    | false => exact .same

/-- `upsert_txt` moves the records of its name only. -/
theorem upsertTxt_moves (params : CloudflareParams) (r : DnsRecord) (w : Weather) (z : ζ) :
    api.Moves r z (api.upsertTxt params r w z).2 := by
  unfold ZoneApi.upsertTxt
  split
  · exact .same
  · split
    · exact .same
    next id hid =>
      refine ZoneApi.Moves.write ?_ _
      cases hl : w.lookup with
      | listed =>
        rw [hl] at hid
        obtain ⟨e, he, rfl⟩ := Option.map_eq_some_iff.mp (Except.ok.inj hid)
        exact .put he
      | noResult => rw [hl] at hid; cases hid
      | failed e => rw [hl] at hid; cases hid
    · exact ZoneApi.Moves.write .post _

/-- `delete_txt` moves the records of its name only. -/
theorem deleteTxt_moves (params : CloudflareParams) (r : DnsRecord) (w : Weather) (z : ζ) :
    api.Moves r z (api.deleteTxt params r w z).2 := by
  unfold ZoneApi.deleteTxt
  split
  · exact .same
  · split
    · exact .same
    · exact .same
    next id hid =>
      refine ZoneApi.Moves.write ?_ _
      cases hl : w.lookup with
      | listed =>
        rw [hl] at hid
        obtain ⟨e, he, rfl⟩ := Option.map_eq_some_iff.mp (Except.ok.inj hid)
        exact .delete he
      | noResult => rw [hl] at hid; cases hid
      | failed e => rw [hl] at hid; cases hid

include hapi in
/-- A record of another name is not touched. -/
theorem ZoneApi.Moves.mem_iff {r : DnsRecord} {z' : ζ} (h : api.Moves r z z')
    (hname : e.name ≠ r.name) : e ∈ api.records z' ↔ e ∈ api.records z := by
  have hids := List.inj_on_of_nodup_map (hapi.nodup z)
  have hother : ∀ {e'}, api.first r.name z = some e' → e ∈ api.records z → e.id ≠ e'.id := by
    intro e' he' hin hid
    obtain ⟨hmem, hname'⟩ := first_spec he'
    rw [hids hin hmem hid] at hname
    exact hname hname'
  cases h with
  | same => rfl
  | @put e' he =>
    rw [hapi.put, List.mem_map]
    constructor
    · rintro ⟨x, hx, hfx⟩
      split_ifs at hfx with hid
      · rw [← hfx] at hname
        exact absurd rfl hname
      · rwa [← hfx]
    · intro hin
      exact ⟨e, hin, if_neg (hother he hin)⟩
  | post =>
    obtain ⟨id, hperm⟩ := hapi.post r z
    rw [hperm.mem_iff, List.mem_cons, or_iff_right]
    rintro rfl
    exact hname rfl
  | @delete e' he =>
    rw [hapi.delete, List.mem_filter, and_iff_left_of_imp]
    exact fun hin => by simpa using hother he hin

end Requests

section Calm

variable {ζ : Type*} {api : ZoneApi ζ} (hapi : api.Lawful) {params : CloudflareParams}
  {token : String × String} (htoken : params.tokenZone = .ok token)
include hapi htoken

/-- To place a record is to leave its name with one at least. -/
theorem upsertTxt_calm (r : DnsRecord) (z : ζ) :
    (api.upsertTxt params r .calm z).1 = .ok () ∧ ∀ n,
      api.count (api.upsertTxt params r .calm z).2 n =
        if r.name = n then max (api.count z n) 1 else api.count z n := by
  simp only [ZoneApi.upsertTxt, htoken, Weather.calm, ZoneApi.findRecord]
  cases hfirst : api.first r.name z with
  | none =>
    have hzero := first_eq_none_iff.mp hfirst
    refine ⟨rfl, fun n => ?_⟩
    change api.count (api.post r z) n = _
    rw [count_post hapi]
    split_ifs with hn
    · rw [← hn, hzero]
      rfl
    · rfl
  | some e =>
    obtain ⟨he, hname⟩ := first_spec hfirst
    refine ⟨rfl, fun n => ?_⟩
    change api.count (api.put e.id r z) n = _
    rw [count_put hapi r he hname]
    split_ifs with hn
    · have hne : api.count z r.name ≠ 0 := fun hzero => by
        rw [first_eq_none_iff.mpr hzero] at hfirst
        cases hfirst
      rw [← hn]
      omega
    · rfl

/-- To remove a record is to take one from its name, if there is any. -/
theorem deleteTxt_calm (r : DnsRecord) (z : ζ) (n : String) :
    api.count (api.deleteTxt params r .calm z).2 n =
      if r.name = n then api.count z n - 1 else api.count z n := by
  simp only [ZoneApi.deleteTxt, htoken, Weather.calm, ZoneApi.findRecord]
  cases hfirst : api.first r.name z with
  | none =>
    have hzero := first_eq_none_iff.mp hfirst
    change api.count z n = _
    split_ifs with hn
    · rw [← hn, hzero]
    · rfl
  | some e =>
    obtain ⟨he, hname⟩ := first_spec hfirst
    have hcount := count_delete hapi he n
    rw [hname] at hcount
    change api.count (api.delete e.id z) n = _
    split_ifs with hn
    · rw [if_pos hn] at hcount
      omega
    · rw [if_neg hn] at hcount
      omega

end Calm

section Sample

/-- An id that no record has. -/
def freshId (records : List ZoneRecord) : String :=
  String.ofList (List.replicate (((records.map fun e => e.id.length).sum) + 1) 'x')

private theorem freshId_not_mem (records : List ZoneRecord) :
    freshId records ∉ records.map ZoneRecord.id := by
  intro hmem
  obtain ⟨e, he, hid⟩ := List.mem_map.mp hmem
  have hlen : e.id.length ≤ (records.map fun e => e.id.length).sum :=
    List.le_sum_of_mem (List.mem_map_of_mem he)
  rw [hid, freshId] at hlen
  simp at hlen

/-- Records with distinct ids. -/
abbrev ListZone := {records : List ZoneRecord // (records.map ZoneRecord.id).Nodup}

/-- A zone kept as a list. -/
def listZone : ZoneApi ListZone where
  records z := z.1
  put id r z := ⟨z.1.map fun e => if e.id = id then r.listed id else e, by
    have hids : z.1.map (ZoneRecord.id ∘ fun e => if e.id = id then r.listed id else e) =
        z.1.map ZoneRecord.id := by
      refine List.map_congr_left fun e _ => ?_
      rw [Function.comp]
      split_ifs with hid
      · exact hid.symm
      · rfl
    rw [List.map_map, hids]
    exact z.2⟩
  post r z := ⟨r.listed (freshId z.1) :: z.1, by
    rw [List.map_cons, List.nodup_cons]
    exact ⟨freshId_not_mem z.1, z.2⟩⟩
  delete id z := ⟨z.1.filter fun e => e.id ≠ id, (z.2.sublist (List.filter_sublist.map _))⟩

/-- A list of records is such a zone. -/
theorem listZone_lawful : listZone.Lawful where
  nodup z := z.2
  put _ _ _ := rfl
  post _ z := ⟨freshId z.1, List.Perm.refl _⟩
  delete _ _ := rfl

/-- A zone without records. -/
def emptyZone : ListZone := ⟨[], List.nodup_nil⟩

/-- A record that has nothing to do with certificates. -/
def mailRecord : ZoneRecord := ⟨"1", "mail.example", "v=spf1 -all", 300⟩

/-- A zone with one record of somebody else. -/
def mailZone : ListZone := ⟨[mailRecord], List.nodup_singleton _⟩

end Sample

end NdnFwd.Acme
