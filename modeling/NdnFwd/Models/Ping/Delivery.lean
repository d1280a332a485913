import NdnFwd.Models.Ping.Exchange

/-!
# What a ping tells of the server

No two Interests of a client have the same name, and the forwarder lets each be answered once. So
whatever is joined, stored, delayed or lost, each result of a client is Data of its own, and where
nobody else sends Data under the prefix of the server, it counts no more results than the server has
sent replies.
-/

namespace NdnFwd.Ping

section Projections

variable (i j : Nat) (d : Option PingData) (ms : List Message) (os : List Output)
  (notes : List Note) (x : PingData)

/-- What the resumption of a client shows. -/
def resumed : List Note := (d.map (Note.taken i)).toList ++ ms.map (.client i)

@[simp] theorem served_resumed : served (resumed i d ms) = [] := by
  have hclient : (ms.map (Note.client i)).filterMap Note.output? = [] := by
    rw [List.filterMap_map]
    exact List.filterMap_none ms
  rw [served, resumed, List.filterMap_append, hclient]
  cases d with
  | none => rfl
  | some d => rfl

private theorem messagesOf_resumed : messagesOf (resumed i d ms) j = if i = j then ms else [] := by
  have htaken : (d.map (Note.taken i)).toList.filterMap (Note.message? j) = [] := by
    cases d with
    | none => rfl
    | some d => rfl
  rw [messagesOf, resumed, List.filterMap_append, htaken, List.nil_append, List.filterMap_map]
  split_ifs with h
  · subst h
    rw [show Note.message? i ∘ Note.client i = some from funext fun m => if_pos rfl]
    exact List.filterMap_some
  · rw [show Note.message? j ∘ Note.client i = fun _ => none from funext fun m => if_neg h]
    exact List.filterMap_none ms

private theorem takenBy_resumed : takenBy (resumed i d ms) j = if i = j then d.toList else [] := by
  have hclient : (ms.map (Note.client i)).filterMap (Note.taken? j) = [] := by
    rw [List.filterMap_map]
    exact List.filterMap_none ms
  rw [takenBy, resumed, List.filterMap_append, hclient, List.append_nil]
  cases d with
  | none => simp
  | some d => simp [Note.taken?, List.filterMap_cons]; split_ifs <;> rfl

@[simp] theorem served_map_server : served (os.map .server) = replies os := by
  rw [served, List.filterMap_map]
  exact congrArg replies List.filterMap_some

@[simp] theorem messagesOf_map_server : messagesOf (os.map .server) i = [] := by
  rw [messagesOf, List.filterMap_map]
  exact List.filterMap_none os

@[simp] theorem takenBy_map_server : takenBy (os.map .server) i = [] := by
  rw [takenBy, List.filterMap_map]
  exact List.filterMap_none os

private theorem messagesOf_snoc_offered :
    messagesOf (notes ++ [.offered x]) i = messagesOf notes i := by
  rw [messagesOf_append]
  exact List.append_nil _

private theorem takenBy_snoc_offered : takenBy (notes ++ [.offered x]) i = takenBy notes i := by
  rw [takenBy_append]
  exact List.append_nil _

private theorem served_snoc_offered : served (notes ++ [.offered x]) = served notes := by
  rw [served_append]
  exact List.append_nil _

end Projections

section Client

variable (wire : Wire) (p : PingClientParams) (c : Counts) (r : Resume)

private theorem results_append (ms ns : List Message) :
    results (ms ++ ns) = results ms ++ results ns := by
  rw [results, structured_append, List.filterMap_append]
  rfl

private theorem results_finish : results (finish wire p c r).2 = [] := by
  rw [results, finish, structured_summaryEvents]
  rfl

private theorem results_enter : results (enter wire p c r).2 = [] := by
  rw [enter]
  split_ifs
  · exact results_finish wire p c r
  · exact results_finish wire p c r
  · rfl

private theorem results_again : results (again wire p c r).2 = [] := by
  rw [again]
  split_ifs
  · rfl
  · exact results_enter wire p _ r

private theorem results_after (e : ToolEvent) (next : Client × List Message)
    (h : results next.2 = []) :
    results (after e next).2 = results [.event e] := by
  rw [after, ← List.singleton_append, results_append, h, List.append_nil]

/-- A client reports a result exactly if it is handed the Data that it waits for. -/
theorem length_results_step (s : Client) : (results (step wire p s r).2).length =
    if s.isFetching = true ∧ r.fetched.isData = true then 1 else 0 := by
  cases s with
  | start =>
    rw [step, results_after _ _ (results_enter ..)]
    rfl
  | sleeping c =>
    rw [step, results_enter]
    rfl
  | finished => rfl
  | fetching c =>
    rw [step]
    cases hf : r.fetched with
    | data name rttUs =>
      dsimp only
      rw [results_after _ _ (results_again ..)]
      rfl
    | nacked reason rttUs =>
      dsimp only
      rw [results_after _ _ (results_again ..)]
      rfl
    | timeout =>
      dsimp only
      rw [results_after _ _ (results_again ..)]
      rfl
    | error text =>
      dsimp only
      rw [results_after _ _ (results_finish ..)]
      rfl

variable {wire p}

/-- The Interests of a client are numbered. -/
theorem exists_interests {ms : List Message} {s : Client} (h : StreamAt wire p ms s) :
    ∃ k, interests ms = (List.range k).map p.pingName := by
  cases s with
  | start =>
    obtain rfl : ms = [] := h
    exact ⟨0, rfl⟩
  | fetching c => exact ⟨_, Tells.names h⟩
  | sleeping c => exact ⟨_, Tells.names h⟩
  | finished =>
    obtain ⟨body, c, failed, elapsedMs, -, htells, rfl⟩ := h
    refine ⟨c.seq + failed, ?_⟩
    rw [interests_append, interests_map_event, List.append_nil, htells.names]

/-- They differ in name. -/
theorem nodup_interests {ms : List Message} {s : Client} (h : StreamAt wire p ms s) :
    (interests ms).Nodup := by
  obtain ⟨k, hk⟩ := exists_interests h
  rw [hk]
  refine List.nodup_range.map fun a b hab => ?_
  have hlast := List.append_cancel_left hab
  injection hlast with _ hlast
  injection hlast with hcomponent _
  exact Digits.decimal_injective (by simpa [NameComponent.generic] using hcomponent)

/-- They are under the prefix that a server with the same prefix registers. -/
theorem registered_isPrefix {ms : List Message} {s : Client} (h : StreamAt wire p ms s)
    {q : PingServerParams} (hq : p.namePrefix = q.namePrefix) {n : Name} (hn : n ∈ interests ms) :
    q.registered <+: n := by
  obtain ⟨k, hk⟩ := exists_interests h
  rw [hk] at hn
  obtain ⟨seq, -, rfl⟩ := List.mem_map.mp hn
  rw [PingServerParams.registered, PingClientParams.pingName, hq]
  exact ⟨[.generic (Digits.decimal seq)], List.append_assoc ..⟩

/-- They are plain. -/
theorem mayAnswer_requests {ms : List Message} {s : Client} (h : StreamAt wire p ms s) {n : Name}
    {more : List Message} (hmore : ∀ name ∈ interests more, name ∈ interests ms) :
    (p.requests more).countP (mayAnswer n) = (interests more).countP fun name => name = n := by
  obtain ⟨k, hk⟩ := exists_interests h
  rw [PingClientParams.requests, List.countP_map]
  apply List.countP_congr
  intro name hname
  have hping := hmore name hname
  rw [hk] at hping
  obtain ⟨seq, -, rfl⟩ := List.mem_map.mp hping
  simp [mayAnswer, isPlain, PingClientParams.pingName, NameComponent.generic, implicitDigest,
    eq_comm]

end Client

section Crossed

variable (notes : List Note) (ts : List (Crossing Face Interest PingData))

/-- What has been shown agrees with what has passed between the forwarder and its faces. -/
structure Crossed : Prop where
  asked : ∀ i n, ts.countP (Crossing.asks mayAnswer (.client i) n) ≤
    (interests (messagesOf notes i)).countP fun name => name = n
  taken : ∀ i n, (takenBy notes i).countP (fun d => d.name = n) ≤
    ts.countP (Crossing.brings PingData.name (.client i) n)
  handed : ∀ i, ∀ d ∈ takenBy notes i, .handed (.client i) (.data d) ∈ ts
  sent : ∀ face d, .sent face (.data d) ∈ ts → d ∈ served notes ∨ d ∈ offered notes

variable {notes ts}

private theorem crossed_nil : Crossed [] [] where
  asked _ _ := Nat.le_refl 0
  taken _ _ := Nat.le_refl 0
  handed _ _ h := absurd h List.not_mem_nil
  sent _ _ h := absurd h List.not_mem_nil

/-- A packet is handed over, and not taken. -/
theorem Crossed.dropped (h : Crossed notes ts) (face : Face) (m : Packet) :
    Crossed notes (ts ++ [.handed face m]) where
  asked i n := by
    rw [countP_asks_handed]
    exact h.asked i n
  taken i n := by
    rw [countP_brings_handed]
    exact Nat.le_trans (h.taken i n) (Nat.le_add_right _ _)
  handed i d hd := List.mem_append_left _ (h.handed i d hd)
  sent face' d hd := by
    rcases List.mem_append.mp hd with hd | hd
    · exact h.sent face' d hd
    · cases List.mem_singleton.mp hd

/-- A client takes Data. -/
theorem Crossed.take (h : Crossed notes ts) (i : Nat) (d : PingData) :
    Crossed (notes ++ [.taken i d]) (ts ++ [.handed (.client i) (.data d)]) := by
  have htaken : ∀ j, takenBy (notes ++ [.taken i d]) j =
      takenBy notes j ++ if i = j then [d] else [] := by
    intro j
    rw [takenBy_append]
    exact congrArg _ (takenBy_resumed i j (some d) [])
  have hmessages : ∀ j, messagesOf (notes ++ [.taken i d]) j = messagesOf notes j := by
    intro j
    rw [messagesOf_append]
    exact List.append_nil _
  have hserved : served (notes ++ [.taken i d]) = served notes := by
    rw [served_append]
    exact List.append_nil _
  have hoffered : offered (notes ++ [.taken i d]) = offered notes := by
    rw [offered_append]
    exact List.append_nil _
  refine ⟨fun j n => ?_, fun j n => ?_, fun j x hx => ?_, fun face x hx => ?_⟩
  · rw [countP_asks_handed, hmessages]
    exact h.asked j n
  · rw [countP_brings_handed, htaken, List.countP_append]
    refine Nat.add_le_add (h.taken j n) ?_
    by_cases hij : i = j
    · subst hij
      simp [Crossing.brings, List.countP_singleton]
    · rw [if_neg hij]
      exact Nat.zero_le _
  · rw [htaken] at hx
    rcases List.mem_append.mp hx with hx | hx
    · exact List.mem_append_left _ (h.handed j x hx)
    · split_ifs at hx with hij
      · rw [List.mem_singleton.mp hx, hij]
        exact List.mem_append_right _ (List.mem_singleton_self _)
      · cases hx
  · rw [hserved, hoffered]
    exact (h.dropped _ _).sent face x hx

/-- A client sends plain Interests. -/
theorem Crossed.client (h : Crossed notes ts) {i : Nat} {p : PingClientParams} {ms : List Message}
    (hplain : ∀ n, (p.requests ms).countP (mayAnswer n) =
      (interests ms).countP fun name => name = n) :
    Crossed (notes ++ ms.map (.client i))
      (ts ++ ((p.requests ms).map Message.request).map (.sent (.client i))) := by
  have hmessages : ∀ j, messagesOf (notes ++ ms.map (.client i)) j =
      messagesOf notes j ++ if i = j then ms else [] := by
    intro j
    rw [messagesOf_append]
    exact congrArg _ (messagesOf_resumed i j none ms)
  have htaken : ∀ j, takenBy (notes ++ ms.map (.client i)) j = takenBy notes j := by
    intro j
    have hnone := takenBy_resumed i j none ms
    rw [takenBy_append, show ms.map (Note.client i) = resumed i none ms from rfl, hnone]
    split_ifs
    · exact List.append_nil _
    · exact List.append_nil _
  refine ⟨fun j n => ?_, fun j n => ?_, fun j d hd => ?_, fun face d hd => ?_⟩
  · rw [hmessages]
    by_cases hij : i = j
    · subst hij
      rw [countP_asks_requests, hplain, if_pos rfl, interests_append, List.countP_append]
      exact Nat.add_le_add_right (h.asked i n) _
    · rw [countP_asks_of_ne _ _ _ fun hface => hij (Face.client.inj hface), if_neg hij,
        List.append_nil]
      exact h.asked j n
  · rw [countP_brings_sends, htaken]
    exact h.taken j n
  · rw [htaken] at hd
    exact List.mem_append_left _ (h.handed j d hd)
  · rw [served_append, offered_append]
    rcases List.mem_append.mp hd with hd | hd
    · exact (h.sent face d hd).imp (List.mem_append_left _) (List.mem_append_left _)
    · obtain ⟨m, hm, he⟩ := List.mem_map.mp hd
      obtain ⟨q, -, rfl⟩ := List.mem_map.mp hm
      cases (Crossing.sent.inj he).2

/-- The server replies. -/
theorem Crossed.server (h : Crossed notes ts) (os : List Output) :
    Crossed (notes ++ os.map .server)
      (ts ++ ((replies os).map Message.data).map (.sent .server)) := by
  refine ⟨fun i n => ?_, fun i n => ?_, fun i d hd => ?_, fun face d hd => ?_⟩
  · rw [countP_asks_of_ne _ _ _ Face.noConfusion, messagesOf_append, messagesOf_map_server,
      List.append_nil]
    exact h.asked i n
  · rw [countP_brings_sends, takenBy_append, takenBy_map_server, List.append_nil]
    exact h.taken i n
  · rw [takenBy_append, takenBy_map_server, List.append_nil] at hd
    exact List.mem_append_left _ (h.handed i d hd)
  · rw [served_append, served_map_server, offered_append]
    rcases List.mem_append.mp hd with hd | hd
    · exact (h.sent face d hd).imp (List.mem_append_left _) (List.mem_append_left _)
    · obtain ⟨m, hm, he⟩ := List.mem_map.mp hd
      obtain ⟨d', hd', rfl⟩ := List.mem_map.mp hm
      rw [← Message.data.inj (Crossing.sent.inj he).2]
      exact .inl (List.mem_append_right _ hd')

/-- Another program asks. -/
theorem Crossed.ask (h : Crossed notes ts) (i : Nat) (q : Interest) :
    Crossed notes (ts ++ [.sent (.other i) (.request q)]) where
  asked j n := by
    rw [countP_asks_request, if_neg fun hface => Face.noConfusion hface.1]
    exact h.asked j n
  taken j n := by
    rw [countP_brings_sent]
    exact h.taken j n
  handed j d hd := List.mem_append_left _ (h.handed j d hd)
  sent face d hd := by
    rcases List.mem_append.mp hd with hd | hd
    · exact h.sent face d hd
    · cases List.mem_singleton.mp hd

/-- Another program sends Data. -/
theorem Crossed.offer (h : Crossed notes ts) (i : Nat) (d : PingData) :
    Crossed (notes ++ [.offered d]) (ts ++ [.sent (.other i) (.data d)]) := by
  refine ⟨fun j n => ?_, fun j n => ?_, fun j x hx => ?_, fun face x hx => ?_⟩
  · rw [countP_asks_data, messagesOf_snoc_offered]
    exact h.asked j n
  · rw [countP_brings_sent, takenBy_snoc_offered]
    exact h.taken j n
  · rw [takenBy_snoc_offered] at hx
    exact List.mem_append_left _ (h.handed j x hx)
  · rw [served_snoc_offered, offered_append]
    rcases List.mem_append.mp hx with hx | hx
    · exact (h.sent face x hx).imp_right (List.mem_append_left _)
    · obtain ⟨-, hm⟩ := Crossing.sent.inj (List.mem_singleton.mp hx)
      rw [Message.data.inj hm]
      exact .inr (List.mem_append_right _ (List.mem_singleton_self _))

end Crossed

section Sound

variable {σ : Type*} (u : Setup σ) (notes : List Note)

/-- What holds of the tasks, the forwarder and what has been shown so far. -/
structure Sound (s : Exchange σ) : Prop where
  crossed : ∃ ts, u.net.Reaches ts s.net ∧ Crossed notes ts
  told : ∀ i, (results (messagesOf notes i)).length = (takenBy notes i).length
  stream : ∀ i t, s.clients[i]? = some t → StreamAt u.wire t.params (messagesOf notes i) t.state
  absent : ∀ i, s.clients.length ≤ i → messagesOf notes i = []
  numbered : Numbered u.params (served notes)
  counts : s.server.Counts (served notes)

end Sound

section Steps

variable {σ : Type*} {u : Setup σ} {notes : List Note} {s : Exchange σ} {net : σ}
  {ts : List (Crossing Face Interest PingData)}

private theorem sound_idle (u : Setup σ) : Sound u [] (Exchange.idle u) where
  crossed := ⟨[], .start, crossed_nil⟩
  told _ := rfl
  stream _ _ h := absurd h (by simp [Exchange.idle])
  absent _ _ := rfl
  numbered := numbered_nil
  counts := rfl

/-- Only the forwarder has moved. -/
theorem Sound.moved (h : Sound u notes s) (hreach : u.net.Reaches ts net)
    (hcrossed : Crossed notes ts) : Sound u notes { s with net := net } where
  crossed := ⟨ts, hreach, hcrossed⟩
  told := h.told
  stream := h.stream
  absent := h.absent
  numbered := h.numbered
  counts := h.counts

/-- The server is resumed. -/
theorem Sound.serve (h : Sound u notes s) (a : Arrival) :
    Sound u (notes ++ (s.serve u a).2) (s.serve u a).1 := by
  obtain ⟨ts, hreach, hcrossed⟩ := h.crossed
  have hnext := @numbered_step u.wire u.params u.keyText s.server
    (notes.filterMap Note.output?) h.numbered h.counts a
  rw [Exchange.serve]
  dsimp only at hnext ⊢
  generalize serverStep u.wire u.params u.keyText s.server a = next at hnext
  obtain ⟨server, os⟩ := next
  rw [replies_append] at hnext
  have hserved : served (notes ++ os.map .server) = served notes ++ replies os := by
    rw [served_append, served_map_server]
  refine ⟨⟨_, hreach.acceptAll .server _, hcrossed.server os⟩, ?_, ?_, ?_, ?_, ?_⟩
  · intro i
    simpa using h.told i
  · intro i t ht
    simpa using h.stream i t ht
  · intro i hi
    simpa using h.absent i hi
  · rw [hserved]
    exact hnext.1
  · rw [hserved]
    exact hnext.2

/-- A client is resumed, with Data that it has taken. -/
theorem Sound.resume (h : Sound u notes s) {i : Nat} {t : ClientTask} {r : Resume}
    {d : Option PingData} (ht : s.clients[i]? = some t) (hreach : u.net.Reaches ts net)
    (hcrossed : Crossed (notes ++ (d.map (Note.taken i)).toList) ts)
    (htold : d.toList.length =
      if t.state.isFetching = true ∧ r.fetched.isData = true then 1 else 0) :
    Sound u (notes ++ (Exchange.resume u { s with net := net } i t r d).2)
      (Exchange.resume u { s with net := net } i t r d).1 := by
  have hresults := length_results_step u.wire t.params r t.state
  have hstream := streamAt_step (h.stream i t ht) r
  rw [Exchange.resume]
  dsimp only
  generalize step u.wire t.params t.state r = next at hresults hstream
  obtain ⟨state, ms⟩ := next
  dsimp only at hresults hstream ⊢
  have hplain : ∀ n, (t.params.requests ms).countP (mayAnswer n) =
      (interests ms).countP fun name => name = n := by
    intro n
    refine mayAnswer_requests hstream fun name hname => ?_
    rw [interests_append]
    exact List.mem_append_right _ hname
  have hsent := hcrossed.client (i := i) hplain
  rw [List.append_assoc] at hsent
  rw [← resumed] at hsent ⊢
  have hserved : served (notes ++ resumed i d ms) = served notes := by simp
  have hmessages : ∀ j, messagesOf (notes ++ resumed i d ms) j =
      messagesOf notes j ++ if i = j then ms else [] := by
    intro j
    rw [messagesOf_append, messagesOf_resumed]
  have htaken : ∀ j, takenBy (notes ++ resumed i d ms) j =
      takenBy notes j ++ if i = j then d.toList else [] := by
    intro j
    rw [takenBy_append, takenBy_resumed]
  refine ⟨⟨_, hreach.acceptAll (.client i) _, hsent⟩, ?_, ?_, ?_, ?_, ?_⟩
  · intro j
    rw [hmessages, htaken, results_append, List.length_append, List.length_append, h.told]
    split_ifs
    · rw [hresults, htold]
    · rfl
  · intro j t' ht'
    rw [hmessages]
    by_cases hij : i = j
    · subst hij
      rw [List.getElem?_set_self', ht] at ht'
      obtain rfl := Option.some.inj ht'
      rw [if_pos rfl]
      exact hstream
    · rw [List.getElem?_set_ne hij] at ht'
      rw [if_neg hij, List.append_nil]
      exact h.stream j t' ht'
  · intro j hj
    rw [List.length_set] at hj
    have hij : i ≠ j := by
      rintro rfl
      rw [List.getElem?_eq_none hj] at ht
      cases ht
    rw [hmessages, if_neg hij, List.append_nil]
    exact h.absent j hj
  · rw [hserved]
    exact h.numbered
  · rw [hserved]
    exact h.counts

/-- A client is handed Data. -/
theorem Sound.fetch (h : Sound u notes s) (hcrossed : Crossed notes ts) {i : Nat} {d : PingData}
    (hnet : u.net.Reaches (ts ++ [.handed (.client i) (.data d)]) net) (rttUs : Nat)
    (isClosed : Bool) (elapsedMs : Nat) :
    Sound u (notes ++ (s.fetch u net i d rttUs isClosed elapsedMs).2)
      (s.fetch u net i d rttUs isClosed elapsedMs).1 := by
  have hquiet : Sound u (notes ++ []) s := by rwa [List.append_nil]
  rw [Exchange.fetch]
  split
  · exact hquiet
  next t ht =>
    split_ifs with hfetching
    · refine h.resume ht hnet (hcrossed.take i d) ?_
      rw [if_pos ⟨hfetching, rfl⟩]
      rfl
    · exact hquiet

/-- The forwarder goes on. -/
theorem Sound.turn (h : Sound u notes s) (k : Nat) (signOk sendOk : Bool) (rttUs : Nat)
    (isClosed : Bool) (elapsedMs : Nat) :
    Sound u (notes ++ (s.turn u k signOk sendOk rttUs isClosed elapsedMs).2)
      (s.turn u k signOk sendOk rttUs isClosed elapsedMs).1 := by
  obtain ⟨ts, hreach, hcrossed⟩ := h.crossed
  rw [Exchange.turn]
  split
  next net m hk => exact (h.moved (hreach.handed hk) (hcrossed.dropped _ _)).serve _
  next net i d hk => exact h.fetch hcrossed (hreach.handed hk) ..
  next net out _ _ hk =>
    rw [List.append_nil]
    cases out with
    | none => exact h.moved (hreach.quiet hk) hcrossed
    | some e => exact h.moved (hreach.handed hk) (hcrossed.dropped _ _)

/-- A client is started. -/
theorem Sound.start (h : Sound u notes s) (p : PingClientParams) :
    Sound u notes { s with clients := s.clients ++ [⟨p, .start⟩] } where
  crossed := h.crossed
  told := h.told
  stream i t ht := by
    rcases Nat.lt_trichotomy i s.clients.length with hlt | rfl | hgt
    · rw [List.getElem?_append_left hlt] at ht
      exact h.stream i t ht
    · rw [List.getElem?_concat_length] at ht
      obtain rfl := Option.some.inj ht
      exact h.absent _ (Nat.le_refl _)
    · rw [List.getElem?_eq_none (by simp; omega)] at ht
      cases ht
  absent i hi := h.absent i (Nat.le_of_succ_le (by simpa using hi))
  numbered := h.numbered
  counts := h.counts

/-- Another program sends Data. -/
theorem Sound.offer (h : Sound u notes s) (i : Nat) (d : PingData) :
    Sound u (notes ++ [.offered d]) { s with net := u.net.accept s.net (.other i) (.data d) } := by
  obtain ⟨ts, hreach, hcrossed⟩ := h.crossed
  refine ⟨⟨_, hreach.accept _ _, hcrossed.offer i d⟩, fun j => ?_, fun j t ht => ?_,
    fun j hj => ?_, ?_, ?_⟩
  · rw [messagesOf_snoc_offered, takenBy_snoc_offered]
    exact h.told j
  · rw [messagesOf_snoc_offered]
    exact h.stream j t ht
  · rw [messagesOf_snoc_offered]
    exact h.absent j hj
  · rw [served_snoc_offered]
    exact h.numbered
  · rw [served_snoc_offered]
    exact h.counts

/-- A step of the system. -/
theorem sound_step (h : Sound u notes s) (e : ExchangeEvent) :
    Sound u (notes ++ ((exchange u).step s e).2) ((exchange u).step s e).1 := by
  have hquiet : ∀ s', Sound u notes s' → Sound u (notes ++ []) s' := fun s' hs => by
    rwa [List.append_nil]
  obtain ⟨ts, hreach, hcrossed⟩ := h.crossed
  cases e with
  | start p => exact hquiet _ (h.start p)
  | wake i r =>
    dsimp only [exchange]
    rw [Exchange.wake]
    split
    · exact hquiet _ h
    next t ht =>
      split_ifs with hdata
      · exact hquiet _ h
      · refine h.resume ht hreach (by simpa using hcrossed) ?_
        rw [if_neg fun hboth => hdata hboth.2]
        rfl
  | turn k signOk sendOk rttUs isClosed elapsedMs => exact h.turn ..
  | stop channel => exact h.serve _
  | ask i q => exact hquiet _ (h.moved (hreach.accept _ _) (hcrossed.ask i q))
  | offer i d => exact h.offer i d

/-- So it is in every run. -/
theorem sound_run (u : Setup σ) (es : List ExchangeEvent) :
    Sound u ((exchange u).sent (.idle u) es) ((exchange u).run (.idle u) es) := by
  induction es using List.reverseRecOn with
  | nil => exact sound_idle u
  | append_singleton es e ih =>
    rw [Machine.run_snoc, Machine.sent_snoc]
    exact sound_step ih e

end Steps

section Sessions

variable {σ : Type*} {u : Setup σ} {notes : List Note} {s : Exchange σ} {i : Nat} {t : ClientTask}

/-- No other program sends Data under the prefix that the server has registered. -/
def Alone (u : Setup σ) (notes : List Note) : Prop :=
  ∀ d ∈ offered notes, ¬u.params.registered <+: d.name

/-- What a client has taken and told, next to what has been sent. -/
structure Tally (u : Setup σ) (notes : List Note) (i : Nat) (t : ClientTask) : Prop where
  numbered : Numbered u.params (served notes)
  asked : ∀ d ∈ takenBy notes i, d.name ∈ interests (messagesOf notes i)
  once : ((takenBy notes i).map PingData.name).Nodup
  told : (results (messagesOf notes i)).length = (takenBy notes i).length
  source : ∀ d ∈ takenBy notes i, d ∈ served notes ∨ d ∈ offered notes
  own : Alone u notes → t.params.namePrefix = u.params.namePrefix →
    ∀ d ∈ takenBy notes i, d ∈ served notes
  /-- A session without loss took the answer to each of its Interests. -/
  summary : t.state = .finished → ∃ s, Agrees t.params (messagesOf notes i) s ∧
    (Alone u notes → t.params.namePrefix = u.params.namePrefix →
      s.received ≤ (served notes).length) ∧
    (s.received = s.sent → countLevel .error (messagesOf notes i) = 0 →
      ((takenBy notes i).map PingData.name).Perm (interests (messagesOf notes i)))

/-- The names of the Data that a client takes are those of some of its Interests. -/
theorem subperm_taken (hnet : u.net.Lawful mayAnswer PingData.name) (h : Sound u notes s)
    (i : Nat) : ((takenBy notes i).map PingData.name).Subperm (interests (messagesOf notes i)) := by
  obtain ⟨ts, hreach, hcrossed⟩ := h.crossed
  apply List.subperm_ext_iff.mpr
  intro n _
  have hcount : ∀ ns : List Name, ns.count n = ns.countP fun m => m = n := by
    intro ns
    rw [List.count]
    apply List.countP_congr
    intro m _
    exact beq_iff_eq.trans decide_eq_true_iff.symm
  rw [hcount, hcount, List.countP_map]
  calc (takenBy notes i).countP (fun d => d.name = n)
      ≤ ts.countP (Crossing.brings PingData.name (.client i) n) := hcrossed.taken i n
    _ ≤ ts.countP (Crossing.asks mayAnswer (.client i) n) := hnet.answers ts s.net hreach _ n
    _ ≤ (interests (messagesOf notes i)).countP fun m => m = n := hcrossed.asked i n

/-- The Data that a client takes was sent. -/
theorem source_taken (hnet : u.net.Lawful mayAnswer PingData.name) (h : Sound u notes s)
    {d : PingData} (hd : d ∈ takenBy notes i) : d ∈ served notes ∨ d ∈ offered notes := by
  obtain ⟨ts, hreach, hcrossed⟩ := h.crossed
  obtain ⟨face, hsent⟩ := hnet.source ts s.net hreach _ d (hcrossed.handed i d hd)
  exact hcrossed.sent face d hsent

private theorem tally_of_sound (hnet : u.net.Lawful mayAnswer PingData.name) (h : Sound u notes s)
    (ht : s.clients[i]? = some t) : Tally u notes i t := by
  have hstream := h.stream i t ht
  have hsub := subperm_taken hnet h i
  have hasked : ∀ d ∈ takenBy notes i, d.name ∈ interests (messagesOf notes i) := fun d hd =>
    hsub.subset (List.mem_map_of_mem hd)
  have honce : ((takenBy notes i).map PingData.name).Nodup := by
    obtain ⟨ns, hperm, hns⟩ := hsub
    exact hperm.nodup_iff.mp ((nodup_interests hstream).sublist hns)
  have hown : Alone u notes → t.params.namePrefix = u.params.namePrefix →
      ∀ d ∈ takenBy notes i, d ∈ served notes := by
    intro halone hprefix d hd
    refine (source_taken hnet h hd).resolve_right fun hoffered => ?_
    exact halone d hoffered (registered_isPrefix hstream hprefix (hasked d hd))
  refine ⟨h.numbered, hasked, honce, h.told i, fun d => source_taken hnet h, hown,
    fun hfinished => ?_⟩
  rw [hfinished] at hstream
  obtain ⟨c, -, hagrees⟩ := agrees_of_streamAt hstream
  refine ⟨_, hagrees, fun halone hprefix => ?_, fun hlossless hfailed => ?_⟩
  · rw [hagrees.received, h.told]
    exact (List.subperm_of_subset honce.of_map (hown halone hprefix)).length_le
  · apply hsub.perm_of_length_le
    rw [hagrees.names, hfailed, List.length_map, List.length_map, List.length_range, ← h.told,
      ← hagrees.received, hlossless]
    exact Nat.le_refl _

/-- Whatever the server, the clients, the other programs and the forwarder do, the server's replies
are numbered, and a client takes only Data that was sent and that it asked for, none twice, and
reports each. Where no other program sends Data under the prefix of the server, a client of the
server takes nothing but its replies, and so counts no more results than these. -/
theorem pings_tally (u : Setup σ) (hnet : u.net.Lawful mayAnswer PingData.name)
    (es : List ExchangeEvent) {i : Nat} {t : ClientTask}
    (ht : ((exchange u).run (.idle u) es).clients[i]? = some t) :
    Tally u ((exchange u).sent (.idle u) es) i t :=
  tally_of_sound hnet (sound_run u es) ht

/-- A server of every name, and a forwarder that routes all Interests to it. -/
def anySetup : Setup (Caching Face Interest PingData) :=
  ⟨flatWire, ⟨[], 0, false⟩, "", Caching.network mayAnswer PingData.name fun _ => [.server]⟩

/-- Two clients send one Interest each, and these are joined. A third one asks later. -/
def joinedPings : List ExchangeEvent :=
  [.start ⟨[], 1, 0, 4000⟩, .start ⟨[], 1, 0, 4000⟩, .wake 0 ⟨.timeout, false, 0⟩,
    .wake 1 ⟨.timeout, false, 0⟩, .turn 0 true true 0 false 0, .turn 0 true true 40 false 0,
    .turn 0 true true 50 false 0, .start ⟨[], 1, 0, 4000⟩, .wake 2 ⟨.timeout, false, 0⟩,
    .turn 0 true true 60 false 0]

/-- One reply answers both, and from the content store the third. -/
theorem joinedPings_tally :
    (served ((exchange anySetup).sent (.idle anySetup) joinedPings)).length = 1 ∧
      (takenBy ((exchange anySetup).sent (.idle anySetup) joinedPings) 0).length = 1 ∧
      (takenBy ((exchange anySetup).sent (.idle anySetup) joinedPings) 1).length = 1 ∧
      (takenBy ((exchange anySetup).sent (.idle anySetup) joinedPings) 2).length = 1 ∧
      Tally anySetup ((exchange anySetup).sent (.idle anySetup) joinedPings) 2
        ⟨⟨[], 1, 0, 4000⟩, .finished⟩ := by
  refine ⟨?_, ?_, ?_, ?_, pings_tally anySetup Caching.network_lawful joinedPings ?_⟩
  · decide +kernel
  · decide +kernel
  · decide +kernel
  · decide +kernel
  · decide +kernel

end Sessions

end NdnFwd.Ping
