import NdnFwd.Models.Acme.Cache

/-!
# Pairs handed out by the cache

A file whose last write is complete holds what its store was given, and a load that
read such a certificate keeps the number of that store. The pair is one store's own
when the key file it then reads is that store's complete write.
-/

namespace NdnFwd.Acme

variable {pki : Pki}

private theorem getElem?_append_of_some {α : Type*} {l : List α} {j : Nat} {a : α}
    (h : l[j]? = some a) (l' : List α) : (l ++ l')[j]? = some a := by
  obtain ⟨hlt, -⟩ := List.getElem?_eq_some_iff.mp h
  rw [List.getElem?_append_left hlt, h]

/-- A file with a source holds the bytes its store was given. -/
def File.Faithful (f : File) (text : CertMaterial → Bytes) (stores : List CertMaterial) : Prop :=
  ∀ j, f.source = some j → ∃ mat, stores[j]? = some mat ∧ f.content = some (text mat)

/-- One more pair may have been stored. -/
theorem File.Faithful.append {f : File} {text : CertMaterial → Bytes} {stores : List CertMaterial}
    (h : f.Faithful text stores) (mat : CertMaterial) : f.Faithful text (stores ++ [mat]) := by
  intro j hj
  obtain ⟨mat', hget, hc⟩ := h j hj
  exact ⟨mat', getElem?_append_of_some hget _, hc⟩

/-- What every reachable state keeps. -/
structure Inv (s : State) : Prop where
  /-- The store at work is on record. -/
  slot : ∀ c, s.store = some c → s.stores[c.number]? = some c.mat
  /-- The certificate file. -/
  cert : s.cert.Faithful CertMaterial.certChainPem s.stores
  /-- The key file. -/
  key : s.key.Faithful CertMaterial.privateKeyPem s.stores
  /-- The certificate a load has read. -/
  reading : ∀ id caller cert j, s.tasks id = some (.reading caller cert (some j)) →
    ∃ mat, s.stores[j]? = some mat ∧ cert = mat.certChainPem

/-- Nothing has been stored. -/
theorem Inv.empty : Inv State.empty where
  slot c hc := by cases hc
  cert j hj := by cases hj
  key j hj := by cases hj
  reading id caller cert j h := by cases h

/-- A caller may move on to anything but a load that it did not make. -/
theorem Inv.update {s : State} (h : Inv s) (id : Nat) (t : Option Task)
    (ht : ∀ caller cert j, t = some (.reading caller cert (some j)) →
      ∃ mat, s.stores[j]? = some mat ∧ cert = mat.certChainPem) :
    Inv { s with tasks := Function.update s.tasks id t } where
  slot := h.slot
  cert := h.cert
  key := h.key
  reading id' caller cert j hr := by
    have hu : Function.update s.tasks id t id' = some (.reading caller cert (some j)) := hr
    by_cases hid : id' = id
    · rw [hid, Function.update_self] at hu
      exact ht caller cert j hu
    · rw [Function.update_of_ne hid] at hu
      exact h.reading id' caller cert j hu

/-- Beginning a store touches no file. -/
theorem Inv.beginStore {s : State} (h : Inv s) (mat : CertMaterial) (resolving : Bool) :
    Inv (s.beginStore mat resolving) where
  slot c hc := by
    obtain rfl := Option.some.inj hc
    exact List.getElem?_concat_length ..
  cert := h.cert.append mat
  key := h.key.append mat
  reading id caller cert j hr := by
    obtain ⟨mat', hget, he⟩ := h.reading id caller cert j hr
    exact ⟨mat', getElem?_append_of_some hget _, he⟩

/-- A load that returns leaves its caller ordering or gone, and hands out only what it loaded. -/
theorem finishLoad_cases (pki : Pki) (now : Int) (id : Nat) (loaded : Option CertMaterial)
    (s : State) (caller : Caller) :
    ∃ t, (finishLoad pki now id loaded s caller).1 =
        { s with tasks := Function.update s.tasks id t } ∧
      (t = none ∨ ∃ c, t = some (.ordering c)) ∧
      ∀ o ∈ (finishLoad pki now id loaded s caller).2, ∀ mat,
        o.material = some mat → loaded = some mat := by
  cases caller with
  | load =>
    refine ⟨none, rfl, Or.inl rfl, fun o ho mat hm => ?_⟩
    obtain rfl := List.mem_singleton.mp ho
    exact hm
  | resolve =>
    cases loaded with
    | none => exact ⟨_, rfl, Or.inr ⟨.resolve, rfl⟩, fun o ho => by cases ho⟩
    | some m =>
      unfold finishLoad
      by_cases hn : needsRenewal pki now m.certChainPem = true
      · simp only [hn, if_true]
        exact ⟨_, rfl, Or.inr ⟨.resolve, rfl⟩, fun o ho => by cases ho⟩
      · simp only [hn]
        refine ⟨none, rfl, Or.inl rfl, fun o ho mat hm => ?_⟩
        obtain rfl := List.mem_singleton.mp ho
        exact hm
  | renewal =>
    unfold finishLoad
    dsimp only
    split_ifs
    · exact ⟨_, rfl, Or.inr ⟨.renewal, rfl⟩, fun o ho => by cases ho⟩
    · exact ⟨none, rfl, Or.inl rfl, fun o ho => by cases ho⟩

/-- A load ends. -/
theorem Inv.finishLoad {s : State} (h : Inv s) (now : Int) (id : Nat)
    (loaded : Option CertMaterial) (caller : Caller) :
    Inv (Acme.finishLoad pki now id loaded s caller).1 := by
  obtain ⟨t, he, ht, -⟩ := finishLoad_cases pki now id loaded s caller
  rw [he]
  refine h.update id t fun caller' cert j hr => ?_
  obtain rfl | ⟨c, rfl⟩ := ht <;> cases hr

/-- An order ends. -/
theorem Inv.issued {s : State} (h : Inv s) (id : Nat) (material : Option CertMaterial)
    (caller : Caller) : Inv (s.issued id material caller).1 := by
  have hleave : Inv (s.leave id) := h.update id none fun _ _ _ hr => by cases hr
  cases caller with
  | load => exact h
  | resolve =>
    cases material with
    | none => exact hleave
    | some mat => exact hleave.beginStore mat true
  | renewal =>
    cases material with
    | none => exact hleave
    | some mat => exact hleave.beginStore mat false

/-- A file that is being written has no source. -/
theorem Inv.progress {s : State} (h : Inv s) (n : Nat) (c : StoreCall) : Inv (s.progress n c) := by
  obtain ⟨number, mat, stage, resolving⟩ := c
  cases stage with
  | cert =>
    refine ⟨h.slot, fun j hj => ?_, h.key, h.reading⟩
    cases hj
  | key =>
    refine ⟨h.slot, h.cert, fun j hj => ?_, h.reading⟩
    cases hj

/-- A completed file holds what its store was given. -/
theorem Inv.written {s : State} (h : Inv s) {c : StoreCall} (hc : s.store = some c) :
    Inv (s.written c).1 := by
  have hslot := h.slot c hc
  obtain ⟨number, mat, stage, resolving⟩ := c
  cases stage with
  | cert =>
    refine ⟨fun c' hc' => ?_, fun j hj => ?_, h.key, h.reading⟩
    · obtain rfl := Option.some.inj hc'
      exact hslot
    · obtain rfl := Option.some.inj hj
      exact ⟨mat, hslot, rfl⟩
  | key =>
    refine ⟨fun c' hc' => ?_, h.cert, fun j hj => ?_, h.reading⟩
    · cases hc'
    · obtain rfl := Option.some.inj hj
      exact ⟨mat, hslot, rfl⟩

/-- Every step keeps the invariant. -/
theorem Inv.step {s : State} (h : Inv s) (e : Event) : Inv ((cache pki).step s e).1 := by
  cases e with
  | call id caller =>
    simp only [cache]
    split
    · exact h
    · split
      · exact h.finishLoad 0 id none caller
      next cert hcert =>
        refine h.update id _ fun caller' cert' j hr => ?_
        obtain ⟨-, rfl, hsource⟩ := Task.reading.inj (Option.some.inj hr)
        obtain ⟨mat, hget, hc⟩ := h.cert j hsource
        exact ⟨mat, hget, Option.some.inj (hcert.symm.trans hc)⟩
  | readKey id now =>
    simp only [cache]
    split
    · exact h.finishLoad now id _ _
    · exact h
  | issued id material =>
    simp only [cache]
    split
    · exact h.issued id material _
    · exact h
  | storeCall mat =>
    simp only [cache]
    split
    · exact h.beginStore mat false
    · exact h
  | progress n =>
    simp only [cache]
    split
    · exact h.progress n _
    · exact h
  | written =>
    simp only [cache]
    split
    next c hc => exact h.written hc
    · exact h
  | failed =>
    simp only [cache]
    split
    · refine ⟨fun c hc => ?_, h.cert, h.key, h.reading⟩
      cases hc
    · exact h
  | killed =>
    refine ⟨fun c hc => ?_, h.cert, h.key, fun _ _ _ _ hr => ?_⟩
    · cases hc
    · cases hr

/-- When a load reads the key file: the certificate it has read was a completed write, the
store that wrote it has completed the key file too, and no later store has begun to. -/
def Settled (s : State) : Event → Prop
  | .readKey id _ =>
    match s.tasks id with
    | some (.reading _ _ source) =>
      s.key.content = none ∨ source ≠ none ∧ s.key.source = source
    | _ => True
  | _ => True

instance (s : State) (e : Event) : Decidable (Settled s e) := by
  unfold Settled
  split
  · split <;> infer_instance
  · infer_instance

/-- Material handed out in a settled step belongs to one store. -/
theorem mem_stores_of_settled {s : State} (h : Inv s) {e : Event} (hs : Settled s e)
    {o : Outcome} (ho : o ∈ ((cache pki).step s e).2) {mat : CertMaterial}
    (hm : o.material = some mat) : mat ∈ s.stores := by
  cases e with
  | call id caller =>
    simp only [cache] at ho
    split at ho
    · cases ho
    · split at ho
      · obtain ⟨t, -, -, hout⟩ := finishLoad_cases pki 0 id none s caller
        cases hout o ho mat hm
      · cases ho
  | readKey id now =>
    simp only [cache] at ho
    split at ho
    next caller cert source hid =>
      obtain ⟨t, -, -, hout⟩ := finishLoad_cases pki now id
        (s.key.content.map fun key => ⟨cert, key⟩) s caller
      obtain ⟨key, hkey, rfl⟩ := Option.map_eq_some_iff.mp (hout o ho mat hm)
      simp only [Settled, hid, hkey, reduceCtorEq, false_or] at hs
      obtain ⟨hsource, hsame⟩ := hs
      obtain ⟨j, rfl⟩ := Option.ne_none_iff_exists'.mp hsource
      obtain ⟨m, hget, rfl⟩ := h.reading id caller cert j hid
      obtain ⟨m', hget', hkey'⟩ := h.key j hsame
      obtain rfl := Option.some.inj (hget.symm.trans hget')
      obtain rfl := Option.some.inj (hkey.symm.trans hkey')
      exact List.mem_of_getElem? hget
    · cases ho
  | issued id material =>
    simp only [cache] at ho
    split at ho
    next caller _ _ =>
      cases caller with
      | load => cases ho
      | resolve =>
        cases material with
        | none =>
          obtain rfl := List.mem_singleton.mp ho
          cases hm
        | some m => cases ho
      | renewal => cases material <;> cases ho
    · cases ho
  | written =>
    simp only [cache] at ho
    split at ho
    next c hc =>
      have hslot := h.slot c hc
      unfold State.written at ho
      split at ho
      · cases ho
      · split_ifs at ho
        · obtain rfl := List.mem_singleton.mp ho
          obtain rfl := Option.some.inj hm
          exact List.mem_of_getElem? hslot
        · cases ho
    · cases ho
  | failed =>
    simp only [cache] at ho
    split at ho
    · split_ifs at ho
      · obtain rfl := List.mem_singleton.mp ho
        cases hm
      · cases ho
    · cases ho
  | storeCall m =>
    simp only [cache] at ho
    split at ho <;> cases ho
  | progress n =>
    simp only [cache] at ho
    split at ho <;> cases ho
  | killed => cases ho

/-- Everything a run hands out, to a plain load or as the success of a resolve, is the pair
of one store begun before. -/
def Paired (pki : Pki) (es : List Event) : Prop :=
  ∀ v ∈ (cache pki).visits State.empty es, ∀ o ∈ ((cache pki).step v.1 v.2).2, ∀ mat,
    o.material = some mat → mat ∈ v.1.stores

/-- Runs whose loads find their pair settled hand out matching pairs only. -/
theorem paired_of_settled (pki : Pki) (es : List Event)
    (h : ∀ v ∈ (cache pki).visits State.empty es, Settled v.1 v.2) : Paired pki es := by
  intro v hv o ho mat hm
  have hinv : Inv v.1 :=
    (cache pki).visits_invariant (I := Inv) (fun _ e hs => hs.step e) Inv.empty hv
  exact mem_stores_of_settled hinv (h v hv) ho hm

/-- A parser for which every certificate is valid until the year 5138. -/
def longLived : Pki := ⟨fun _ => some 100000000000⟩

/-- The material of the first order. -/
def firstOrder : CertMaterial := ⟨[0xC1], [0x51]⟩

/-- The material of the second order. -/
def secondOrder : CertMaterial := ⟨[0xC2], [0x52]⟩

/-- A resolve orders and stores a certificate; a load reads it back. -/
theorem paired_first_order :
    Paired longLived [.call 0 .resolve, .issued 0 (some firstOrder), .progress 0, .written,
      .written, .call 1 .load, .readKey 1 0] :=
  paired_of_settled longLived _ (by decide)

/-- The second store is cut off between its two writes; the next start resolves to the new
certificate and the old key. -/
theorem not_paired_after_cut :
    ¬Paired longLived [.storeCall firstOrder, .written, .written, .storeCall secondOrder,
      .written, .killed, .call 0 .resolve, .readKey 0 0] := by
  intro h
  have hlast : ⟨secondOrder.certChainPem, firstOrder.privateKeyPem⟩ ∈ [firstOrder, secondOrder] :=
    h _ (List.getLast_mem (List.cons_ne_nil _ _)) (.resolved (some ⟨[0xC2], [0x51]⟩))
      (List.mem_singleton_self _) _ rfl
  exact absurd hlast (by decide)

end NdnFwd.Acme
