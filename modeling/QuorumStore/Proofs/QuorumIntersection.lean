/-
Quorums that intersect.  Every replica turns to all others, each once, and a write
and a read that together reach more replicas than there are have one in common.

* `Cluster.LaidOut`: what the directory and the preference lists of such a
  cluster say, whatever is cut off;
* `Operation.Routed`: an operation calls each other replica at most once;
* `Traffic.Confirmed`: whoever confirmed a write knows of it;
* `Traffic.Contributed`: an answer to a read from a replica that knows of a write
  brings the read versions that cover it;
* `Traffic.covers_of_quorums`: so a read that is answered by enough replicas returns
  a version that is not older than a write that enough replicas confirmed.
-/
import QuorumStore.Proofs.Durability

namespace QuorumStore

/-- Two lists without repetition that together are longer than a list that contains
both have a member in common. -/
lemma exists_mem_of_length_lt {α : Type} {a b all : List α} (ha : a.Nodup) (hb : b.Nodup)
    (hasub : a ⊆ all) (hbsub : b ⊆ all) (hlength : all.length < a.length + b.length) :
    ∃ x ∈ a, x ∈ b := by
  by_contra hnone
  have hdisjoint : a.Disjoint b := fun x hxa hxb => hnone ⟨x, hxa, hxb⟩
  have hnodup : (a ++ b).Nodup := ha.append hb hdisjoint
  have hsub : a ++ b ⊆ all := List.append_subset.mpr ⟨hasub, hbsub⟩
  have hle : a.length + b.length ≤ all.length :=
    calc a.length + b.length = (a ++ b).length := List.length_append.symm
      _ ≤ all.length := (List.subperm_of_subset hnodup hsub).length_le
  omega

/-! ### Layout -/

/-- The replicas listen at some endpoints, each answers at its own if at all, and
the preference list of each names all of them once. -/
structure Cluster.LaidOut (endpoints : List Endpoint) (c : Cluster) : Prop where
  listen : c.replicas.map Replica.endpoint = endpoints
  directory : ∀ p ∈ c.directory, endpoints[p.2]? = some p.1
  lists : ∀ r ∈ c.replicas, r.list.Perm endpoints

namespace Cluster

variable {endpoints : List Endpoint} {c c' : Cluster} {i : ℕ} {r : Replica} {e : Endpoint}

lemma LaidOut.getElem? (h : c.LaidOut endpoints) (hr : c.replicas[i]? = some r) :
    endpoints[i]? = some r.endpoint := by
  rw [← h.listen, List.getElem?_map, hr, Option.map_some]

/-- Who answers at an endpoint listens there. -/
lemma LaidOut.of_whoAnswers? (h : c.LaidOut endpoints) (hi : c.whoAnswers? e = some i) :
    endpoints[i]? = some e := by
  obtain ⟨p, hp, rfl⟩ := Option.map_eq_some_iff.mp hi
  have hpe : p.1 = e := by simpa using List.find?_some hp
  exact hpe ▸ h.directory p (List.mem_of_find?_eq_some hp)

/-- The layout stays as long as no preference list is changed. -/
lemma LaidOut.evolves {Given : String → Siblings → Prop} {Relisted : Prop}
    (h : c.LaidOut endpoints) (hevolves : Evolves Given Relisted c c') (hkeeps : ¬ Relisted) :
    c'.LaidOut endpoints where
  listen := (hevolves.map_eq fun _ _ h => h.endpoint).trans h.listen
  directory p hp := by
    rcases hevolves.directory p hp with hp | ⟨r, hr, hendpoint⟩
    · exact h.directory p hp
    · exact hendpoint ▸ h.getElem? hr
  lists r' hr' := by
    obtain ⟨j, hj⟩ := List.mem_iff_getElem?.mp hr'
    obtain ⟨r, hr, hrr'⟩ := hevolves.exists_before hj
    rw [hrr'.list hkeeps]
    exact h.lists r (List.mem_of_getElem? hr)

/-- A cluster in which every replica has been attached has its layout. -/
lemma laidOut_ofReplicas {replicas : List Replica}
    (hlists : ∀ r ∈ replicas, r.list.Perm (replicas.map Replica.endpoint)) :
    (ofReplicas replicas).LaidOut (replicas.map Replica.endpoint) := by
  have hnone : LaidOut (replicas.map Replica.endpoint) ⟨replicas, []⟩ := ⟨rfl, by simp, hlists⟩
  have hattached : Evolves (fun _ _ => False) False ⟨replicas, []⟩ (ofReplicas replicas) :=
    evolves_foldl_attach _ _
  exact hnone.evolves hattached id

end Cluster

/-! ### Routes -/

/-- The replicas that an operation has called or will call differ from each other
and from the one that serves it. -/
structure Operation.Routed (endpoints : List Endpoint) (o : Operation) : Prop where
  distinct : ∃ own, endpoints[o.node]? = some own ∧
    (own :: (o.heard.map Prod.fst ++ o.rest)).Nodup
  known : o.heard.map Prod.fst ++ o.rest ⊆ endpoints

namespace Operation

variable {endpoints : List Endpoint} {o : Operation} {peer : Endpoint} {rest : List Endpoint}

/-- The serving replica and some of those that were heard are distinct members of
the layout. -/
lemma Routed.nodup_cons {own : Endpoint} {called : List Endpoint} (h : o.Routed endpoints)
    (hown : endpoints[o.node]? = some own) (hcalled : called.Sublist (o.heard.map Prod.fst)) :
    (own :: called).Nodup ∧ own :: called ⊆ endpoints := by
  obtain ⟨own', hown', hnodup⟩ := h.distinct
  cases hown.symm.trans hown'
  have hsub : called.Sublist (o.heard.map Prod.fst ++ o.rest) :=
    hcalled.trans (List.sublist_append_left _ _)
  refine ⟨hnodup.sublist (hsub.cons_cons own), ?_⟩
  exact List.cons_subset.mpr ⟨List.mem_of_getElem? hown, fun e he => h.known (hsub.subset he)⟩

lemma answered_sublist (o : Operation) : o.answered.Sublist (o.heard.map Prod.fst) :=
  List.filter_sublist.map Prod.fst

/-- A replica that has answered had done so before the call, or is the peer. -/
lemma mem_answered_note {fate : Fate} {answer : Except CallError Errand} {e : Endpoint}
    (h : e ∈ (o.note peer rest fate answer).answered) :
    e ∈ o.answered ∨ e = peer ∧ fate = .heard ∧
      ∀ failure, answer = .error failure → failure = .remote .notFound := by
  cases fate with
  | heard =>
    cases answer with
    | ok x =>
      rcases List.mem_cons.mp h with rfl | h
      · exact .inr ⟨rfl, rfl, fun failure hfailure => by cases hfailure⟩
      · exact .inl h
    | error failure =>
      have hheard : (o.note peer rest .heard (.error failure)).heard
          = (peer, some failure) :: o.heard := rfl
      rw [answered, hheard, List.filter_cons] at h
      split at h
      · rename_i hfault
        rcases List.mem_cons.mp h with rfl | h
        · refine .inr ⟨rfl, rfl, fun failure' hfailure => ?_⟩
          cases hfailure
          simpa using hfault
        · exact .inl h
      · exact .inl h
  | lost failure => exact .inl h
  | unheard failure => exact .inl h

/-- A call keeps the route. -/
lemma Routed.note (h : o.Routed endpoints) (hrest : o.rest = peer :: rest) (fate : Fate)
    (answer : Except CallError Errand) : (o.note peer rest fate answer).Routed endpoints := by
  obtain ⟨own, hown, hnodup⟩ := h.distinct
  have hknown := h.known
  rw [hrest] at hnodup hknown
  rcases o.heard_note peer rest fate answer with hheard | ⟨failure, hheard⟩
  · have hsub : (o.heard.map Prod.fst ++ rest).Sublist (o.heard.map Prod.fst ++ peer :: rest) :=
      (List.sublist_cons_self peer rest).append_left _
    refine ⟨⟨own, hown, ?_⟩, ?_⟩
    · rw [hheard]
      exact hnodup.sublist (hsub.cons_cons own)
    · rw [hheard]
      exact fun e he => hknown (hsub.subset he)
  · have hperm : (o.heard.map Prod.fst ++ peer :: rest).Perm
        (peer :: (o.heard.map Prod.fst ++ rest)) := List.perm_middle
    refine ⟨⟨own, hown, ?_⟩, ?_⟩
    · rw [hheard]
      exact (hperm.cons own).nodup_iff.mp hnodup
    · rw [hheard]
      exact fun e he => hknown (hperm.mem_iff.mpr he)

/-- An operation begins with a route over the peers of its replica. -/
lemma routed_of_begin {c : Cluster} {i : ℕ} {r r' : Replica} {request : Request}
    (hnodup : endpoints.Nodup) (hc : c.LaidOut endpoints) (hr : c.replicas[i]? = some r)
    (hbegin : r.begin i request = some (o, r')) : o.Routed endpoints := by
  have hlist : r.list.Perm endpoints := hc.lists r (List.mem_of_getElem? hr)
  have hpeers : (r.endpoint :: r.peers).Nodup := by
    refine List.nodup_cons.mpr ⟨?_, (hlist.nodup_iff.mpr hnodup).filter _⟩
    simp [Replica.peers]
  have hknown : r.peers ⊆ endpoints := fun e he =>
    hlist.mem_iff.mp (List.mem_of_mem_filter he)
  rcases Replica.begin_eq_some hbegin with
    ⟨key, context, value, merged, -, -, rfl⟩ | ⟨-, ⟨key, -, rfl⟩ | ⟨-, rfl⟩⟩
  all_goals exact ⟨⟨r.endpoint, hc.getElem? hr, hpeers⟩, hknown⟩

end Operation

/-! ### Invariants -/

namespace Traffic

variable {endpoints : List Endpoint} {s t : Traffic} {m : Move}

/-- The replicas are laid out, and each operation takes its route among them. -/
structure LaidOut (endpoints : List Endpoint) (s : Traffic) : Prop where
  cluster : s.cluster.LaidOut endpoints
  routes : ∀ o ∈ s.operations, o.Routed endpoints

lemma LaidOut.after (h : s.LaidOut endpoints) (hnodup : endpoints.Nodup) (hkeeps : s.KeepsLists m) :
    (s.after m).LaidOut endpoints where
  cluster := by
    refine h.cluster.evolves (s.evolves_after m) ?_
    rintro ⟨i, list, hm⟩
    exact hkeeps i list hm
  routes o ho := by
    obtain ⟨k, hk⟩ := List.mem_iff_getElem?.mp ho
    cases continues hk with
    | kept hkept => exact h.routes o (List.mem_of_getElem? hkept)
    | begun _ _ hr hbegin _ => exact Operation.routed_of_begin hnodup h.cluster hr hbegin
    | called _ hcalled _ hrest _ _ =>
      exact (h.routes _ (List.mem_of_getElem? hcalled)).note hrest _ _

/-- What a write replicates covers it, the count of its confirmations is right, and
its own replica as well as each that has confirmed it know of it. -/
structure Confirmed (endpoints : List Endpoint) (s : Traffic) (o : Operation) (w : Write)
    (merged : Siblings) (acks : ℕ) : Prop where
  covers : merged.Covers w.clock
  count : acks = o.confirmed.length + 1
  own : s.KnowsAt o.node w.key w.clock
  peers : ∀ e ∈ o.confirmed, ∃ j, endpoints[j]? = some e ∧ s.KnowsAt j w.key w.clock

/-- What is known of the confirmations of a write, read in the layout. -/
lemma Replicated.confirmed {o : Operation} {w : Write} {merged : Siblings} {acks : ℕ}
    (h : s.Replicated o w merged acks) (hlaid : s.cluster.LaidOut endpoints) :
    s.Confirmed endpoints o w merged acks where
  covers := Siblings.covers_of_mem h.made
  count := h.count
  own := h.own _ h.made
  peers e he := by
    obtain ⟨j, hj, hknows⟩ := h.peers e he
    obtain ⟨r, hr, rfl⟩ := Option.map_eq_some_iff.mp hj
    exact ⟨j, hlaid.getElem? hr, hknows _ h.made⟩

/-! ### Reads -/

/-- If a replica of some that know of a write has contributed to a read, the read has
got a version that covers the write. -/
def Contributed (endpoints knowing : List Endpoint) (c : Clock) (o : Operation)
    (versions : Siblings) : Prop :=
  ∀ e ∈ knowing, endpoints[o.node]? = some e ∨ e ∈ o.answered → versions.Covers c

/-- A peer that contributes to a read and knows of a write brings versions that cover
it, and it does not answer that it holds nothing. -/
lemma contributed_note {knowing : List Endpoint} {key : String} {c : Clock} {o : Operation}
    {peer : Endpoint} {rest : List Endpoint} {fate : Fate} {answer : Except CallError Errand}
    {f : Fated} {reads : ℕ} {versions : Siblings} (h : s.LaidOut endpoints)
    (hknows : ∀ (j : ℕ) (q : Replica) (e : Endpoint), s.cluster.replicas[j]? = some q →
      endpoints[j]? = some e → e ∈ knowing → q.store.Knows key c)
    (hold : ∀ reads versions, o.errand = .get key reads versions →
      Contributed endpoints knowing c o versions)
    (hask : o.errand.ask (Fated.surroundings o.node default) peer ⟨s.cluster, [fate]⟩
      = (answer, f))
    (hget : (o.note peer rest fate answer).errand = .get key reads versions) :
    Contributed endpoints knowing c (o.note peer rest fate answer) versions := by
  cases answer with
  | error e =>
    have hread : o.errand = .get key reads versions := hget
    rintro e' he' (hown | hanswered)
    · exact hold reads versions hread e' he' (.inl hown)
    · rcases Operation.mem_answered_note hanswered with hanswered | ⟨rfl, rfl, hfault⟩
      · exact hold reads versions hread e' he' (.inr hanswered)
      · cases hfault e rfl
        rw [hread] at hask
        obtain ⟨j, q, hj, hq, hnot⟩ := Errand.ask_get_eq_notFound hask
        exact absurd (hknows j q e' hq (h.cluster.of_whoAnswers? hj) he') (hnot c)
  | ok x =>
    obtain ⟨reads', versions', hread⟩ := Errand.exists_of_ask_eq_get hask hget
    rw [hread] at hask
    obtain ⟨rfl, j, q, remote, hj, hq, hremote, rfl⟩ := Errand.ask_get_eq_ok hask
    cases hget
    rintro e' he' (hown | hanswered)
    · exact Siblings.covers_merge.mpr (.inl (hold reads' versions' hread e' he' (.inl hown)))
    · rcases Operation.mem_answered_note hanswered with hanswered | ⟨rfl, -, -⟩
      · exact Siblings.covers_merge.mpr
          (.inl (hold reads' versions' hread e' he' (.inr hanswered)))
      · have hq' : q.store.Knows key c := hknows j q e' hq (h.cluster.of_whoAnswers? hj) he'
        rw [Store.Knows, Store.versions_of_get? hremote] at hq'
        exact Siblings.covers_merge.mpr (.inr hq')

/-- What is known of the contributions to reads from an index on stays true. -/
lemma contributed_after {knowing : List Endpoint} {key : String} {c : Clock} {n : ℕ}
    (h : s.LaidOut endpoints) (hnodup : endpoints.Nodup)
    (hknowing : ∀ e ∈ knowing, ∃ j, endpoints[j]? = some e ∧ s.KnowsAt j key c)
    (hcontributed : ∀ k o, n ≤ k → s.operations[k]? = some o → ∀ reads versions,
      o.errand = .get key reads versions → Contributed endpoints knowing c o versions) :
    ∀ k o, n ≤ k → (s.after m).operations[k]? = some o → ∀ reads versions,
      o.errand = .get key reads versions → Contributed endpoints knowing c o versions := by
  -- the replica at the endpoint of one that knows is the one that knows
  have hknows : ∀ (j : ℕ) (q : Replica) (e : Endpoint), s.cluster.replicas[j]? = some q →
      endpoints[j]? = some e → e ∈ knowing → q.store.Knows key c := by
    intro j q e hq hj he
    obtain ⟨j', hj', r, hr, hr'⟩ := hknowing e he
    have hjj' : j = j' := by
      have hlt := (List.getElem?_eq_some_iff.mp hj).1
      exact (List.getElem?_inj hlt hnodup).mp (hj.trans hj'.symm)
    subst hjj'
    cases hq.symm.trans hr
    exact hr'
  intro k o hn hk reads versions hget
  cases continues hk with
  | kept hkept => exact hcontributed k o hn hkept reads versions hget
  | begun _ _ hr hbegin hafter =>
    rcases Replica.begin_eq_some hbegin with
      ⟨key, context, value, merged', -, hwrite, rfl⟩ | ⟨-, ⟨key, -, rfl⟩ | ⟨-, rfl⟩⟩
    · cases hget
    · cases hget
      rintro e he (hown | hanswered)
      · exact hknows _ _ e hr hown he
      · cases hanswered
    · cases hget
  | called _ hcalled _ _ hask _ =>
    exact contributed_note h hknows (hcontributed k _ hn hcalled) hask hget

/-! ### Quorums -/

/-- While preference lists are kept, the layout and what is known of confirmations
stay. -/
lemma laidOut_of_reaches {replicas : List Replica}
    (hdistinct : (replicas.map Replica.endpoint).Nodup)
    (hlists : ∀ q ∈ replicas, q.list.Perm (replicas.map Replica.endpoint))
    (h : Reaches KeepsLists (start (.ofReplicas replicas)) s) :
    s.LaidOut (replicas.map Replica.endpoint) ∧
      ∀ o ∈ s.operations, ∀ w merged acks, o.errand = .put w merged acks →
        s.Confirmed (replicas.map Replica.endpoint) o w merged acks := by
  have hlaid : s.LaidOut (replicas.map Replica.endpoint) := by
    induction h with
    | refl => exact ⟨Cluster.laidOut_ofReplicas hlists, by simp [start]⟩
    | step _ hkeeps ih => exact ih.after hdistinct hkeeps
  exact ⟨hlaid, fun o ho w merged acks hput =>
    ((replicated_of_reaches h).2 o ho w merged acks hput).confirmed hlaid.cluster⟩

/-- While preference lists are kept, the layout and what is known of the later reads
stay. -/
lemma contributed_of_reaches {endpoints knowing : List Endpoint} {key : String} {c : Clock}
    (hnodup : endpoints.Nodup) (hlaid : s.LaidOut endpoints)
    (hknowing : ∀ e ∈ knowing, ∃ j, endpoints[j]? = some e ∧ s.KnowsAt j key c)
    (h : Reaches KeepsLists s t) :
    t.LaidOut endpoints ∧
      ∀ k o, s.operations.length ≤ k → t.operations[k]? = some o → ∀ reads versions,
        o.errand = .get key reads versions → Contributed endpoints knowing c o versions := by
  induction h with
  | refl =>
    refine ⟨hlaid, fun k o hk ho => ?_⟩
    have hlt := (List.getElem?_eq_some_iff.mp ho).1
    omega
  | @step t m hst hkeeps ih =>
    have hknowing' : ∀ e ∈ knowing, ∃ j, endpoints[j]? = some e ∧ t.KnowsAt j key c := by
      intro e he
      obtain ⟨j, hj, hknows⟩ := hknowing e he
      exact ⟨j, hj, hst.knowsAt hknows⟩
    exact ⟨ih.1.after hnodup hkeeps, contributed_after ih.1 hnodup hknowing' ih.2⟩

/-- A replica in service that is asked to read begins to. -/
lemma exists_begun_read {i : ℕ} {q : Replica} (hq : t.cluster.replicas[i]? = some q)
    (hup : q.outage.down = false) (key : String) :
    ∃ g reads versions, (t.ask i (.get key)).operations[t.operations.length]? = some g ∧
      g.node = i ∧ g.errand = .get key reads versions := by
  have hbegin : q.begin i (.get key)
      = some (⟨i, q.quorum, .get key 1 (q.store.versions key), q.peers, []⟩, q) := by
    simp [Replica.begin, Outage.available, hup]
  refine ⟨⟨i, q.quorum, .get key 1 (q.store.versions key), q.peers, []⟩, 1,
    q.store.versions key, ?_, rfl, rfl⟩
  rw [ask, hq, Option.bind_some, hbegin]
  exact List.getElem?_concat_length

/-- If those that know of a write and those that have answered a read are together more
than there are replicas, the read covers the write. -/
lemma covers_of_contributed {endpoints knowing : List Endpoint} {c : Clock} {g : Operation}
    {versions : Siblings} (hroute : g.Routed endpoints) (hnodup : knowing.Nodup)
    (hsub : knowing ⊆ endpoints)
    (hlength : endpoints.length < knowing.length + (g.answered.length + 1))
    (hcontributed : Contributed endpoints knowing c g versions) : versions.Covers c := by
  obtain ⟨own, hown, -⟩ := hroute.distinct
  obtain ⟨hreaders, hknown⟩ := hroute.nodup_cons hown g.answered_sublist
  obtain ⟨e, hknowing, hreader⟩ :=
    exists_mem_of_length_lt hnodup hreaders hsub hknown hlength
  refine hcontributed e hknowing ?_
  rcases List.mem_cons.mp hreader with rfl | hreader
  · exact .inl hown
  · exact .inr hreader

/-- **Quorums intersect.**  Let every replica turn to all others, and let a write have
been confirmed by `w` replicas.  A read of the key that a replica in service is asked
for later begins and comes to an end; if `r` replicas have answered it and there are
fewer than `w + r`, it returns a version that is equal to the write or after it. -/
theorem covers_of_quorums {replicas : List Replica} {w r : ℕ}
    (hdistinct : (replicas.map Replica.endpoint).Nodup)
    (hlists : ∀ q ∈ replicas, q.list.Perm (replicas.map Replica.endpoint))
    (hquorums : replicas.length < w + r)
    (hs : Reaches KeepsLists (start (.ofReplicas replicas)) s)
    {p : Operation} (hp : p ∈ s.operations) {write : Write} {merged : Siblings} {acks : ℕ}
    (hput : p.errand = .put write merged acks) {receipt : Receipt}
    (hreceipt : p.reply = some (.ok (.put receipt))) (hacks : w ≤ receipt.acks)
    (ht : Reaches KeepsLists s t) :
    (∀ i q, t.cluster.replicas[i]? = some q → q.outage.down = false →
      ∃ g reads versions, (t.ask i (.get write.key)).operations[t.operations.length]? = some g ∧
        g.node = i ∧ g.errand = .get write.key reads versions) ∧
    ∀ k g reads versions, s.operations.length ≤ k → t.operations[k]? = some g →
      g.errand = .get write.key reads versions →
      (∀ fates : List Fate, g.rest.length ≤ fates.length →
        ∃ g', (t.run (fates.map (.call k))).operations[k]? = some g' ∧
          g'.reply.isSome = true) ∧
      (r ≤ g.answered.length + 1 → ∀ reply, g.reply = some reply →
        ∃ found, reply = .ok (.get found) ∧ ∃ v ∈ found, write.clock ≤ v.clock) := by
  obtain ⟨hlaid, hconfirmed⟩ := laidOut_of_reaches hdistinct hlists hs
  have hconfirms := hconfirmed p hp write merged acks hput
  have hcount : w ≤ p.confirmed.length + 1 := by
    have houtcome := Operation.eq_outcome_of_reply hreceipt
    rw [hput] at houtcome
    cases houtcome
    exact hconfirms.count ▸ hacks
  -- the replicas that know of the write from then on
  obtain ⟨own, hown, -⟩ := (hlaid.routes p hp).distinct
  have hwriters := (hlaid.routes p hp).nodup_cons hown p.confirmed_sublist
  have hknowing : ∀ e ∈ own :: p.confirmed, ∃ j, (replicas.map Replica.endpoint)[j]? = some e ∧
      s.KnowsAt j write.key write.clock := by
    intro e he
    rcases List.mem_cons.mp he with rfl | he
    · exact ⟨p.node, hown, hconfirms.own⟩
    · exact hconfirms.peers e he
  obtain ⟨hlaid', hcontributed⟩ := contributed_of_reaches hdistinct hlaid hknowing ht
  refine ⟨fun i q hq hup => exists_begun_read hq hup write.key,
    fun k g reads versions hk hg hget => ⟨fun fates hfates => reply_of_run_calls hg hfates, ?_⟩⟩
  intro hanswers reply hreply
  have hlength : (replicas.map Replica.endpoint).length
      < (own :: p.confirmed).length + (g.answered.length + 1) := by
    rw [List.length_map, List.length_cons]
    omega
  have hcovers : versions.Covers write.clock :=
    covers_of_contributed (hlaid'.routes g (List.mem_of_getElem? hg)) hwriters.1 hwriters.2 hlength
      (hcontributed k g hk hg reads versions hget)
  refine ⟨versions, ?_, hcovers⟩
  obtain ⟨v, hv, -⟩ := hcovers
  rw [Operation.eq_outcome_of_reply hreply, hget, Errand.outcome, if_neg]
  simpa using List.ne_nil_of_mem hv

/-- A write that only its own replica holds is found by a read that reaches both. -/
theorem covers_of_quorums_pair :
    let replicas := (Cluster.pair ⟨1, 2⟩).replicas
    let s := (start (.ofReplicas replicas)).run [.request 0 (.put "k" .empty [1])]
    let t := s.run [.request 1 (.get "k"), .call 1 .heard]
    (replicas.map Replica.endpoint).Nodup ∧
      (∀ q ∈ replicas, q.list.Perm (replicas.map Replica.endpoint)) ∧
      replicas.length < 1 + 2 ∧
      ∃ g found, t.operations[1]? = some g ∧ g.reply = some (.ok (.get found)) ∧
        ∃ v ∈ found, Clock.ofPairs [("n1", 1)] ≤ v.clock := by
  intro replicas s t
  have hdistinct : (replicas.map Replica.endpoint).Nodup := by decide +kernel
  have hlists : ∀ q ∈ replicas, q.list.Perm (replicas.map Replica.endpoint) := by decide +kernel
  have hs : Reaches KeepsLists (start (.ofReplicas replicas)) s :=
    Reaches.refl.run (by simp [Allows, KeepsLists])
  have ht : Reaches KeepsLists s t := Reaches.refl.run (by simp [Allows, KeepsLists])
  let p : Operation := ⟨0, ⟨1, 2⟩,
    .put ⟨0, "n1", "k", .empty, [1]⟩ [⟨.ofPairs [("n1", 1)], [1]⟩] 1, [⟨"localhost", 8001⟩], []⟩
  let g : Operation := ⟨1, ⟨1, 2⟩, .get "k" 2 [⟨.ofPairs [("n1", 1)], [1]⟩], [],
    [(⟨"localhost", 8000⟩, none)]⟩
  have hp : s.operations[0]? = some p := rfl
  have hg : t.operations[1]? = some g := rfl
  have hread := (covers_of_quorums hdistinct hlists (by decide +kernel : replicas.length < 1 + 2) hs
    (List.mem_of_getElem? hp) rfl rfl le_rfl ht).2 1 g 2 _ le_rfl hg rfl
  obtain ⟨found, hfound, v, hv, hle⟩ := hread.2 le_rfl _ rfl
  exact ⟨hdistinct, hlists, by decide +kernel, g, found, hg, congrArg some hfound, v, hv, hle⟩

end Traffic

end QuorumStore
