/-
Operations of a cluster: how they begin, go on and end.

* `Traffic.continues`: an operation that a move leaves behind was there before,
  is begun by the move, or makes its next call;
* `Traffic.writes_after`: a move accepts at most one write;
* `Traffic.reply_of_run_calls`: an operation ends when it has called its peers;
* `Traffic.serve_eq_act`: an operation whose calls are made without a break does
  what a request does as a whole.
-/
import QuorumStore.Proofs.Evolution

namespace QuorumStore

lemma getElem?_concat {α : Type} (l : List α) (x : α) (k : ℕ) :
    (l ++ [x])[k]? = if k = l.length then some x else l[k]? := by
  rcases lt_trichotomy k l.length with hk | hk | hk
  · rw [if_neg hk.ne, List.getElem?_append_left hk]
  · simp [hk]
  · have hlength : (l ++ [x]).length ≤ k := by
      rw [List.length_append, List.length_singleton]
      omega
    rw [if_neg hk.ne', List.getElem?_eq_none hlength, List.getElem?_eq_none hk.le]

/-- A member of a list with one more at its end is a member of the list or the one. -/
lemma getElem?_concat_cases {α : Type} {l : List α} {x y : α} {k : ℕ}
    (h : (l ++ [x])[k]? = some y) : k < l.length ∧ l[k]? = some y ∨ k = l.length ∧ x = y := by
  rw [getElem?_concat] at h
  split at h
  · rename_i hk
    exact .inr ⟨hk, Option.some.inj h⟩
  · exact .inl ⟨(List.getElem?_eq_some_iff.mp h).1, h⟩

/-- Putting in the place of a member one that gives the same leaves what a list gives. -/
lemma filterMap_set {α β : Type} {g : α → Option β} {l : List α} {x y : α} {k : ℕ}
    (hx : l[k]? = some x) (h : g y = g x) : (l.set k y).filterMap g = l.filterMap g := by
  have hmap : (l.set k y).map g = l.map g := by
    rw [List.map_set, h]
    exact set_of_getElem? (by rw [List.getElem?_map, hx, Option.map_some])
  have hid : ∀ l : List α, l.filterMap g = (l.map g).filterMap id := fun l => by
    rw [List.filterMap_map]
    rfl
  rw [hid, hmap, ← hid]

/-! ### Answers to a read -/

namespace Errand

variable {i : ℕ} {r : Replica} {peer : Endpoint} {c : Cluster} {fate : Fate}
variable {key : String} {reads : ℕ} {versions : Siblings}

/-- A peer that answers a read does so with what it holds. -/
lemma ask_get_eq_ok {x : Errand} {f : Fated}
    (h : (get key reads versions).ask (Fated.surroundings i r) peer ⟨c, [fate]⟩ = (.ok x, f)) :
    fate = .heard ∧ ∃ (j : ℕ) (q : Replica) (remote : Siblings),
      c.whoAnswers? peer = some j ∧ c.replicas[j]? = some q ∧ q.store.get? key = some remote ∧
      x = get key (reads + 1) (versions.merge remote).versions := by
  simp only [ask, Prod.mk.injEq] at h
  obtain ⟨hanswer, rfl⟩ := h
  obtain ⟨remote, hremote, rfl⟩ := Except.exists_of_map_eq_ok hanswer
  obtain ⟨hfate, hdeliver⟩ :=
    Fated.counted_exchange_eq_ok (Cluster.serveFetch key) (Prod.ext hremote rfl)
  obtain ⟨j, q, hj, hq, hserve, -⟩ := Cluster.deliver_eq_ok hdeliver
  exact ⟨hfate, j, q, remote, hj, hq, Replica.fetch_eq_ok hserve, rfl⟩

/-- A peer that answers a read with nothing knows of no write of the key. -/
lemma ask_get_eq_notFound {f : Fated}
    (h : (get key reads versions).ask (Fated.surroundings i r) peer ⟨c, [.heard]⟩
      = (.error (.remote .notFound), f)) :
    ∃ (j : ℕ) (q : Replica), c.whoAnswers? peer = some j ∧ c.replicas[j]? = some q ∧
      ∀ clock, ¬ q.store.Knows key clock := by
  simp only [ask, Prod.mk.injEq] at h
  obtain ⟨hanswer, rfl⟩ := h
  have hdeliver := Fated.counted_exchange_eq_error (Cluster.serveFetch key)
    (Prod.ext (Except.eq_error_of_map_eq_error hanswer) rfl)
  obtain ⟨j, q, refusal, hj, hq, hserve, hfault⟩ := Cluster.deliver_eq_remote hdeliver
  refine ⟨j, q, hj, hq, fun clock => ?_⟩
  cases refusal with
  | notFound k => exact Replica.not_knows_of_fetch_notFound hserve
  | _ => cases hfault

/-- A peer that takes a push is counted. -/
lemma ask_gossip_eq_ok {snapshot : Store} {reached : ℕ} {x : Errand} {f : Fated}
    (h : (gossip snapshot reached).ask (Fated.surroundings i r) peer ⟨c, [fate]⟩ = (.ok x, f)) :
    x = gossip snapshot (reached + 1) := by
  simp only [ask, Prod.mk.injEq] at h
  obtain ⟨u, -, rfl⟩ := Except.exists_of_map_eq_ok h.1
  rfl

/-- Turning to a peer is about the same write, read or push. -/
lemma write?_of_ask_eq_ok {x x' : Errand} {f : Fated}
    (h : x.ask (Fated.surroundings i r) peer ⟨c, [fate]⟩ = (.ok x', f)) :
    x'.write? = x.write? := by
  cases x with
  | put write merged acks =>
    obtain ⟨-, rfl, -⟩ := ask_put_eq_ok h
    rfl
  | get key reads versions =>
    obtain ⟨-, j, q, remote, -, -, -, rfl⟩ := ask_get_eq_ok h
    rfl
  | gossip snapshot reached =>
    cases ask_gossip_eq_ok h
    rfl

/-- What a call leaves as a read of a key was one. -/
lemma exists_of_ask_eq_get {x x' : Errand} {f : Fated}
    (h : x.ask (Fated.surroundings i r) peer ⟨c, [fate]⟩ = (.ok x', f))
    (hget : x' = .get key reads versions) : ∃ reads' versions', x = .get key reads' versions' := by
  cases x with
  | put write merged acks =>
    obtain ⟨-, rfl, -⟩ := ask_put_eq_ok h
    cases hget
  | get key' reads' versions' =>
    obtain ⟨-, j, q, remote, -, -, -, rfl⟩ := ask_get_eq_ok h
    cases hget
    exact ⟨reads', versions', rfl⟩
  | gossip snapshot reached =>
    cases ask_gossip_eq_ok h
    cases hget

/-- An operation about a write is the serving of that write. -/
lemma exists_of_write? {x : Errand} {w : Write} (h : x.write? = some w) :
    ∃ merged acks, x = .put w merged acks := by
  cases x with
  | put write merged acks =>
    cases h
    exact ⟨merged, acks, rfl⟩
  | _ => cases h

end Errand

namespace Traffic

variable {s t : Traffic} {m : Move} {k : ℕ} {o : Operation}

/-! ### Where operations come from -/

/-- How an operation with an index comes out of a move: it was there before, the
move begins it, or the move is its next call. -/
inductive Continues (s : Traffic) (m : Move) (k : ℕ) : Operation → Prop where
  | kept {o : Operation} (ho : s.operations[k]? = some o) : Continues s m k o
  | begun {i : ℕ} {request : Request} {r r' : Replica} {o : Operation}
      (hm : m = .request i request) (hk : k = s.operations.length)
      (hr : s.cluster.replicas[i]? = some r) (hbegin : r.begin i request = some (o, r'))
      (hafter : s.after m
        = ⟨s.cluster.modify i fun _ => r', s.operations ++ [o], s.letters⟩) :
      Continues s m k o
  | called {fate : Fate} {o : Operation} {peer : Endpoint} {rest : List Endpoint}
      {answer : Except CallError Errand} {f : Fated}
      (hm : m = .call k fate) (ho : s.operations[k]? = some o)
      (henough : o.errand.enough o.quorum = false) (hrest : o.rest = peer :: rest)
      (hask : o.errand.ask (Fated.surroundings o.node default) peer ⟨s.cluster, [fate]⟩
        = (answer, f))
      (hafter : s.after m = ⟨f.cluster, s.operations.set k (o.note peer rest fate answer),
        s.letters ++ (o.errand.letter? peer).toList⟩) :
      Continues s m k (o.note peer rest fate answer)

/-- Every operation comes out of a move in one of these ways. -/
theorem continues (h : (s.after m).operations[k]? = some o) : s.Continues m k o := by
  cases m with
  | request i request =>
    rcases s.ask_cases i request with ⟨r, r', o', hr, hbegin, hask⟩ | ⟨-, hask⟩
    · change (s.ask i request).operations[k]? = some o at h
      rw [hask] at h
      rcases getElem?_concat_cases h with ⟨-, hk⟩ | ⟨hk, rfl⟩
      · exact .kept hk
      · exact .begun rfl hk hr hbegin hask
    · change (s.ask i request).operations[k]? = some o at h
      rw [hask] at h
      exact .kept h
  | call k' fate =>
    rcases s.call_cases k' fate with hcall | ⟨o', peer, rest, answer, f, ho, henough, hrest,
      hask, hcall⟩
    · change (s.call k' fate).operations[k]? = some o at h
      rw [hcall] at h
      exact .kept h
    · change (s.call k' fate).operations[k]? = some o at h
      rw [hcall] at h
      by_cases hk : k' = k
      · subst hk
        have hlt := (List.getElem?_eq_some_iff.mp ho).1
        rw [List.getElem?_set_self hlt, Option.some.injEq] at h
        exact h ▸ .called rfl ho henough hrest hask hcall
      · exact .kept (by rwa [List.getElem?_set_ne hk] at h)
  | arrival j =>
    rcases s.arrive_cases j with harrive | ⟨l, -, harrive⟩
    · change (s.arrive j).operations[k]? = some o at h
      rw [harrive] at h
      exact .kept h
    · change (s.arrive j).operations[k]? = some o at h
      rw [harrive] at h
      exact .kept h
  | _ => exact .kept h

/-! ### Writes -/

/-- What an operation has got and what it is about after a call. -/
lemma write?_note {i : ℕ} {r : Replica} {peer : Endpoint} {rest : List Endpoint} {c : Cluster}
    {fate : Fate} {answer : Except CallError Errand} {f : Fated}
    (h : o.errand.ask (Fated.surroundings i r) peer ⟨c, [fate]⟩ = (answer, f)) :
    (o.note peer rest fate answer).errand.write? = o.errand.write? := by
  cases answer with
  | ok x => exact Errand.write?_of_ask_eq_ok h
  | error e => rfl

/-- A move accepts at most one write, which is the last then. -/
theorem writes_after (s : Traffic) (m : Move) :
    (s.after m).writes = s.writes ∨
      ∃ i key context value r merged r', m = .request i (.put key context value) ∧
        s.cluster.replicas[i]? = some r ∧ r.write key context value = .ok (merged, r') ∧
        (s.after m).cluster = s.cluster.modify i (fun _ => r') ∧
        (s.after m).writes = s.writes ++ [⟨i, r.id, key, context, value⟩] := by
  cases m with
  | request i request =>
    rcases s.ask_cases i request with ⟨r, r', o, hr, hbegin, hask⟩ | ⟨-, hask⟩
    · change (s.ask i request).writes = s.writes ∨ _
      rcases Replica.begin_eq_some hbegin with
        ⟨key, context, value, merged, rfl, hwrite, rfl⟩ | ⟨-, ⟨key, -, rfl⟩ | ⟨-, rfl⟩⟩
      · refine .inr ⟨i, key, context, value, r, merged, r', rfl, hr, hwrite, ?_, ?_⟩
        · exact congrArg Traffic.cluster hask
        · change (s.ask i _).writes = _
          simp [hask, writes, Errand.write?]
      · exact .inl (by simp [hask, writes, Errand.write?])
      · exact .inl (by simp [hask, writes, Errand.write?])
    · exact .inl (congrArg (fun t => t.operations.filterMap fun o => o.errand.write?) hask)
  | call k fate =>
    left
    rcases s.call_cases k fate with hcall | ⟨o, peer, rest, answer, f, ho, -, -, hask, hcall⟩
    · exact congrArg writes hcall
    · change (s.call k fate).writes = s.writes
      rw [hcall]
      exact filterMap_set ho (write?_note hask)
  | arrival j =>
    left
    change (s.arrive j).writes = s.writes
    rcases s.arrive_cases j with harrive | ⟨l, -, harrive⟩
    · rw [harrive]
    · rw [harrive]
      rfl
  | _ => exact .inl rfl

/-! ### The calls of an operation -/

/-- An operation that has ended makes no further call. -/
lemma call_of_ended (ho : s.operations[k]? = some o)
    (hended : o.errand.enough o.quorum = true ∨ o.rest = []) (fate : Fate) :
    s.call k fate = s := by
  rcases s.call_cases k fate with hcall | ⟨o', peer, rest, -, -, ho', henough, hrest, -, -⟩
  · exact hcall
  · cases ho.symm.trans ho'
    rcases hended with h | h
    · rw [h] at henough
      cases henough
    · rw [h] at hrest
      cases hrest

/-- Further calls of an operation that has ended change nothing. -/
lemma run_calls_of_ended (ho : s.operations[k]? = some o)
    (hended : o.errand.enough o.quorum = true ∨ o.rest = []) (fates : List Fate) :
    s.run (fates.map (.call k)) = s := by
  induction fates with
  | nil => rfl
  | cons fate fates ih =>
    change (s.call k fate).run _ = s
    rw [call_of_ended ho hended, ih]

end Traffic

/-- Only the first fate decides about a call. -/
lemma Fated.counted_exchange_cons {α : Type} (i : ℕ) (r : Replica) (method : Method)
    (peer : Endpoint) (serve : Replica → Except Refusal α × Replica) (c : Cluster) (fate : Fate)
    (fates : List Fate) :
    Coordination.counted (surroundings i r) method (fun p => exchange p serve) peer
        ⟨c, fate :: fates⟩
      = let call := Coordination.counted (surroundings i r) method (fun p => exchange p serve) peer
          ⟨c, [fate]⟩
        (call.1, ⟨call.2.cluster, fates⟩) := by
  cases fate with
  | heard =>
    simp only [Coordination.counted, exchange, List.headD_cons, List.tail_cons]
    cases (c.deliver peer serve).1 <;> rfl
  | lost e => rfl
  | unheard e => rfl

/-- An operation with enough answers, or without further peers, has ended. -/
lemma Operation.reply_of_ended {o : Operation}
    (h : o.errand.enough o.quorum = true ∨ o.rest = []) :
    o.reply = some (o.errand.outcome o.quorum) :=
  if_pos h

lemma Errand.outcome_get {quorum : Quorum} {key : String} {reads : ℕ} {versions : Siblings} :
    (get key reads versions).outcome quorum
      = (if versions.isEmpty then .error (.notFound key)
        else .ok versions : Except Refusal Siblings).map .get := by
  rw [outcome]
  split <;> rfl

/-- A replica that begins an operation is in service. -/
lemma Replica.available_of_begin {i : ℕ} {r r' : Replica} {request : Request} {o : Operation}
    (h : r.begin i request = some (o, r')) : r.outage.available = .ok () := by
  rw [Outage.available]
  by_cases hdown : r.outage.down = true
  · cases request <;> simp [begin, write_eq, Outage.available, hdown] at h
  · exact if_neg hdown

/-- A request that begins no operation makes no calls, so fates do not matter. -/
lemma Cluster.act_of_begin_eq_none {c : Cluster} {i : ℕ} {request : Request} {fates : List Fate}
    (hbegin : ∀ r, c.replicas[i]? = some r → r.begin i request = none) :
    c.act (.request i request fates) = c.act (.request i request []) := by
  cases hr : c.replicas[i]? with
  | none => simp only [act, hr]
  | some r =>
    have hself : ∀ fates, (Fated.surroundings i r).self ⟨c, fates⟩ = r := fun fates => by
      simp [Fated.surroundings, hr]
    have hnone := hbegin r hr
    simp only [act, hr]
    cases request with
    | put key context value | get key | gossip =>
      obtain ⟨e, hrefused⟩ :=
        Replica.exists_refusal_of_begin_eq_none (by simp [Request.method]) hnone
      rw [hrefused _ _ (hself fates), hrefused _ _ (hself [])]
    | crash seconds =>
      have hnow : ∀ fates, (Fated.surroundings i r).now ⟨c, fates⟩ = 0 := fun _ => rfl
      simp only [Coordination.perform, Coordination.crash, Coordination.crashFor, hself, hnow]
      cases r.outage.start 0 (seconds.toNat * 1000) <;> rfl
    | fetch key => simp only [Coordination.perform, hself]
    | assignList list => rfl
    | _ =>
      simp only [Coordination.perform, hself]
      rfl

namespace Traffic

variable {s : Traffic} {k : ℕ} {o : Operation}

/-- A call of an operation that has not ended turns to its next peer. -/
lemma call_eq {peer : Endpoint} {rest : List Endpoint} (ho : s.operations[k]? = some o)
    (henough : o.errand.enough o.quorum = false) (hrest : o.rest = peer :: rest) (fate : Fate) :
    s.call k fate =
      let call := o.errand.ask (Fated.surroundings o.node default) peer ⟨s.cluster, [fate]⟩
      ⟨call.2.cluster, s.operations.set k (o.note peer rest fate call.1),
        s.letters ++ (o.errand.letter? peer).toList⟩ := by
  simp [call, ho, henough, hrest]

/-- The calls of an operation one after the other are a walk over its peers, which
collects what the operation keeps as `got` has it. -/
lemma run_calls {α β : Type} {method : Method} {i : ℕ} {r : Replica} {quorum : Quorum}
    (serve : Replica → Except Refusal α × Replica) {enough : β → Bool} (add : β → α → β)
    (got : β → Errand) (henough : ∀ b, (got b).enough quorum = enough b)
    (hask : ∀ b peer f, (got b).ask (Fated.surroundings i default) peer f =
      let call := Coordination.counted (Fated.surroundings i r) method
        (fun p => Fated.exchange p serve) peer f
      (call.1.map fun a => got (add b a), call.2))
    (b : β) {peers : List Endpoint} {heard : List (Endpoint × Option CallError)}
    {fates : List Fate} (hfates : peers.length ≤ fates.length)
    (ho : s.operations[k]? = some ⟨i, quorum, got b, peers, heard⟩) :
    let walked := Coordination.walk (Coordination.counted (Fated.surroundings i r) method
      fun p => Fated.exchange p serve) enough add peers b ⟨s.cluster, fates⟩
    let t := s.run (fates.map (.call k))
    t.cluster = walked.2.cluster ∧
      ∃ o, t.operations = s.operations.set k o ∧
        o.reply = some ((got walked.1).outcome quorum) := by
  induction peers generalizing s b fates heard with
  | nil =>
    have hrun := run_calls_of_ended ho (.inr rfl) fates
    refine ⟨congrArg Traffic.cluster hrun, ⟨i, quorum, got b, [], heard⟩, ?_,
      Operation.reply_of_ended (.inr rfl)⟩
    rw [hrun, set_of_getElem? ho]
  | cons peer rest ih =>
    by_cases hend : enough b = true
    · have hended : (got b).enough quorum = true := by rw [henough, hend]
      have hrun := run_calls_of_ended ho (.inl hended) fates
      simp only [Coordination.walk, if_pos hend]
      refine ⟨congrArg Traffic.cluster hrun, ⟨i, quorum, got b, peer :: rest, heard⟩, ?_,
        Operation.reply_of_ended (.inl hended)⟩
      rw [hrun, set_of_getElem? ho]
    · obtain _ | ⟨fate, fates⟩ := fates
      · simp at hfates
      have hgoes : (got b).enough quorum = false := by
        rw [henough, Bool.eq_false_iff.mpr hend]
      have hcall := call_eq ho hgoes rfl fate
      have hlength : rest.length ≤ fates.length := by simpa using hfates
      have hlt := (List.getElem?_eq_some_iff.mp ho).1
      rw [hask] at hcall
      rw [Coordination.walk, if_neg hend, Fated.counted_exchange_cons]
      generalize Coordination.counted (Fated.surroundings i r) method
        (fun p => Fated.exchange p serve) peer ⟨s.cluster, [fate]⟩ = served at hcall ⊢
      obtain ⟨answer, f⟩ := served
      -- the operation goes on with what the answer adds, or with what it had
      have hgo : ∀ b' heard',
          Operation.note ⟨i, quorum, got b, peer :: rest, heard⟩ peer rest fate
              (answer.map fun a => got (add b a)) = ⟨i, quorum, got b', rest, heard'⟩ →
            let walked := Coordination.walk (Coordination.counted (Fated.surroundings i r) method
              fun p => Fated.exchange p serve) enough add rest b' ⟨f.cluster, fates⟩
            let t := (s.call k fate).run (fates.map (.call k))
            t.cluster = walked.2.cluster ∧
              ∃ o, t.operations = s.operations.set k o ∧
                o.reply = some ((got walked.1).outcome quorum) := by
        intro b' heard' hnote
        simp only [hnote] at hcall
        have ho' : (s.call k fate).operations[k]? = some ⟨i, quorum, got b', rest, heard'⟩ := by
          rw [hcall]
          exact List.getElem?_set_self hlt
        obtain ⟨hcluster, o, hoperations, hreply⟩ := ih b' hlength ho'
        simp only [hcall] at hcluster hoperations hreply ⊢
        exact ⟨hcluster, o, by rw [hoperations, List.set_set], hreply⟩
      cases answer with
      | ok a => exact hgo (add b a) _ rfl
      | error e => exact hgo b _ rfl

/-! ### Operations as a whole -/

/-- An operation ends when it has called all its peers, however the calls fare. -/
theorem reply_of_run_calls {fates : List Fate} (ho : s.operations[k]? = some o)
    (hfates : o.rest.length ≤ fates.length) :
    ∃ o', (s.run (fates.map (.call k))).operations[k]? = some o' ∧ o'.reply.isSome = true := by
  have hlt := (List.getElem?_eq_some_iff.mp ho).1
  obtain ⟨i, quorum, errand, rest, heard⟩ := o
  have hset : ∀ outcome, (∃ o', (s.run (fates.map (.call k))).operations = s.operations.set k o' ∧
      o'.reply = some outcome) → ∃ o', (s.run (fates.map (.call k))).operations[k]? = some o' ∧
      o'.reply.isSome = true := by
    rintro outcome ⟨o', hoperations, hreply⟩
    exact ⟨o', by rw [hoperations, List.getElem?_set_self hlt], by rw [hreply, Option.isSome_some]⟩
  cases errand with
  | put write merged acks =>
    exact hset _ (run_calls (r := default) (·.replicate write.key merged) (fun acks _ => acks + 1)
      (.put write merged) (fun _ => rfl) (fun _ _ _ => rfl) acks hfates ho).2
  | get key reads versions =>
    exact hset _ (run_calls (r := default) (Cluster.serveFetch key)
      (fun got remote => (got.1 + 1, (got.2.merge remote).versions))
      (fun got => .get key got.1 got.2) (fun _ => rfl) (fun _ _ _ => rfl)
      (reads, versions) hfates ho).2
  | gossip snapshot reached =>
    exact hset _ (run_calls (r := default) (·.absorb snapshot) (fun reached _ => reached + 1)
      (.gossip snapshot) (fun _ => rfl) (fun _ _ _ => rfl) reached hfates ho).2

/-- A request that begins no operation is served as one event. -/
theorem ask_eq_act {i : ℕ} {request : Request}
    (hbegin : ∀ r, s.cluster.replicas[i]? = some r → r.begin i request = none)
    (fates : List Fate) :
    s.ask i request
      = ⟨(s.cluster.act (.request i request fates)).2, s.operations, s.letters⟩ := by
  rw [Cluster.act_of_begin_eq_none hbegin]
  rcases s.ask_cases i request with ⟨r, r', o, hr, hbegun, -⟩ | ⟨-, hask⟩
  · rw [hbegin r hr] at hbegun
    cases hbegun
  · exact hask

/-- **An operation as a whole.**  A write, read or push that makes its calls without
a break does to the cluster, and answers, what the request does as one event with
the same fates. -/
theorem serve_eq_act {i : ℕ} {request : Request} {r r' : Replica} {fates : List Fate}
    (hr : s.cluster.replicas[i]? = some r) (hbegin : r.begin i request = some (o, r'))
    (hfates : r.peers.length ≤ fates.length) :
    let t := (s.ask i request).run (fates.map (.call s.operations.length))
    t.cluster = (s.cluster.act (.request i request fates)).2 ∧
      ∃ o', t.operations = s.operations ++ [o'] ∧
        o'.reply = (s.cluster.act (.request i request fates)).1 := by
  have hask : s.ask i request
      = ⟨s.cluster.modify i fun _ => r', s.operations ++ [o], s.letters⟩ := by
    simp [ask, hr, hbegin]
  have hbegun : (s.ask i request).cluster = s.cluster.modify i fun _ => r' :=
    congrArg Traffic.cluster hask
  have ho : (s.ask i request).operations[s.operations.length]? = some o := by
    rw [hask]
    exact List.getElem?_concat_length
  have hself : (Fated.surroundings i r).self ⟨s.cluster, fates⟩ = r := by
    simp [Fated.surroundings, hr]
  have hset : ∀ o', (s.ask i request).operations.set s.operations.length o'
      = s.operations ++ [o'] := fun o' => by simp [hask]
  rcases Replica.begin_eq_some hbegin with
    ⟨key, context, value, merged, rfl, hwrite, rfl⟩ | ⟨rfl, ⟨key, rfl, rfl⟩ | ⟨rfl, rfl⟩⟩
  · obtain ⟨hcluster, o', hoperations, hreply⟩ := run_calls (r := r)
      (·.replicate key merged) (fun acks _ => acks + 1)
      (.put ⟨i, r.id, key, context, value⟩ merged)
      (fun _ => rfl) (fun _ _ _ => rfl) 1 hfates ho
    simp only [Cluster.act, hr, Coordination.perform, Coordination.put, hself, hwrite]
    rw [hbegun] at hcluster hreply
    exact ⟨hcluster, o', hoperations.trans (hset o'), hreply⟩
  · have havailable := Replica.available_of_begin hbegin
    obtain ⟨hcluster, o', hoperations, hreply⟩ := run_calls (r := r)
      (Cluster.serveFetch key) (fun got remote => (got.1 + 1, (got.2.merge remote).versions))
      (fun got => .get key got.1 got.2) (fun _ => rfl) (fun _ _ _ => rfl)
      (1, r.store.versions key) hfates ho
    rw [hbegun, Cluster.modify_of_getElem? hr] at hcluster hreply
    simp only [Cluster.act, hr, Coordination.perform, Coordination.get, hself, havailable]
    exact ⟨hcluster, o', hoperations.trans (hset o'),
      hreply.trans (congrArg some Errand.outcome_get)⟩
  · have havailable := Replica.available_of_begin hbegin
    obtain ⟨hcluster, o', hoperations, hreply⟩ := run_calls (r := r)
      (·.absorb r.store) (fun reached _ => reached + 1) (.gossip r.store)
      (fun _ => rfl) (fun _ _ _ => rfl) 0 hfates ho
    rw [hbegun, Cluster.modify_of_getElem? hr] at hcluster hreply
    simp only [Cluster.act, hr, Coordination.perform, Coordination.gossip, hself, havailable]
    exact ⟨hcluster, o', hoperations.trans (hset o'), hreply⟩

end Traffic

end QuorumStore
