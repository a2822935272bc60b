/-
What the receipt of a write says.  The replica that serves a write asks the peers that
its preference list names, in order, and counts each entry of the list whose call has
succeeded.  The list is taken over as it is given, so it may name a peer twice.

* `Cluster.Addressed`: whoever answers at an endpoint listens there;
* `Traffic.Replicated`: the count of a write is right, and its own replica as well as
  each that has confirmed it know of all that it replicates;
* `Traffic.holders_of_receipt`: a receipt counts one more than the entries that have
  confirmed, and as many replicas know of the write as different peers have confirmed
  it, with its own.  So it counts replicas if the list names no other replica twice;
* `Traffic.acks_of_repeated`: if the list does, a receipt may count more than there are.
-/
import Mathlib.Data.List.Dedup
import QuorumStore.Proofs.Operations

namespace QuorumStore

/-- If each member of a list is given by something with a property, the list is. -/
lemma exists_map_eq_map_some {α β : Type} {f : α → Option β} {P : α → Prop} {bs : List β}
    (h : ∀ b ∈ bs, ∃ a, f a = some b ∧ P a) :
    ∃ as : List α, as.map f = bs.map some ∧ ∀ a ∈ as, P a := by
  induction bs with
  | nil => exact ⟨[], rfl, by simp⟩
  | cons b rest ih =>
    rw [List.forall_mem_cons] at h
    obtain ⟨a, ha, hPa⟩ := h.1
    obtain ⟨as, hmap, hP⟩ := ih h.2
    exact ⟨a :: as, by simp [ha, hmap], List.forall_mem_cons.mpr ⟨hPa, hP⟩⟩

/-! ### Directories -/

namespace Cluster

variable {c c' : Cluster} {e : Endpoint} {j : ℕ}

/-- Where a replica listens. -/
def endpoint? (c : Cluster) (j : ℕ) : Option Endpoint :=
  c.replicas[j]?.map Replica.endpoint

/-- Whoever answers at an endpoint listens there. -/
def Addressed (c : Cluster) : Prop :=
  ∀ p ∈ c.directory, c.endpoint? p.2 = some p.1

lemma endpoint?_of_getElem? {r : Replica} (hr : c.replicas[j]? = some r) :
    c.endpoint? j = some r.endpoint := by
  rw [endpoint?, hr, Option.map_some]

/-- Replicas stay at their endpoints. -/
lemma Evolves.endpoint?_eq {Given : String → Siblings → Prop} {Relisted : Prop}
    (h : c.Evolves Given Relisted c') (j : ℕ) : c'.endpoint? j = c.endpoint? j := by
  rw [endpoint?, endpoint?, ← List.getElem?_map, ← List.getElem?_map,
    h.map_eq fun _ _ hr => hr.endpoint]

lemma Addressed.evolves {Given : String → Siblings → Prop} {Relisted : Prop}
    (h : c.Addressed) (hevolves : c.Evolves Given Relisted c') : c'.Addressed := by
  intro p hp
  rw [hevolves.endpoint?_eq]
  rcases hevolves.directory p hp with hp | ⟨r, hr, hendpoint⟩
  · exact h p hp
  · exact hendpoint ▸ endpoint?_of_getElem? hr

lemma Addressed.of_whoAnswers? (h : c.Addressed) (hj : c.whoAnswers? e = some j) :
    c.endpoint? j = some e := by
  obtain ⟨p, hp, rfl⟩ := Option.map_eq_some_iff.mp hj
  have hpe : p.1 = e := by simpa using List.find?_some hp
  exact hpe ▸ h p (List.mem_of_find?_eq_some hp)

/-- Replicas that are attached one after the other evolve. -/
lemma evolves_foldl_attach {Given : String → Siblings → Prop} {Relisted : Prop}
    (indices : List ℕ) (c : Cluster) : Evolves Given Relisted c (indices.foldl attach c) := by
  induction indices generalizing c with
  | nil => exact .refl c
  | cons i rest ih => exact (evolves_attach c i).trans (ih _)

lemma addressed_ofReplicas (replicas : List Replica) : (ofReplicas replicas).Addressed := by
  have hnone : Addressed ⟨replicas, []⟩ := by simp [Addressed]
  have hattached : Evolves (fun _ _ => False) False ⟨replicas, []⟩ (ofReplicas replicas) :=
    evolves_foldl_attach _ _
  exact hnone.evolves hattached

end Cluster

/-! ### The calls of one operation -/

namespace Traffic

variable {s t : Traffic} {m : Move} {k : ℕ} {o : Operation}

/-- No operation is forgotten. -/
lemma length_operations_le (s : Traffic) (m : Move) :
    s.operations.length ≤ (s.after m).operations.length := by
  cases m with
  | request i request =>
    change _ ≤ (s.ask i request).operations.length
    rcases s.ask_cases i request with ⟨r, r', o, -, -, hask⟩ | ⟨-, hask⟩
    · simp [hask]
    · simp [hask]
  | call k fate =>
    change _ ≤ (s.call k fate).operations.length
    rcases s.call_cases k fate with hcall | ⟨o, peer, rest, answer, f, -, -, -, -, hcall⟩
    · rw [hcall]
    · simp [hcall]
  | arrival j =>
    change _ ≤ (s.arrive j).operations.length
    rcases s.arrive_cases j with harrive | ⟨l, -, harrive⟩
    · rw [harrive]
    · rw [harrive]
  | _ => exact le_rfl

lemma Reaches.trans {Allowed : Traffic → Move → Prop} {u : Traffic} (h : Reaches Allowed s t)
    (h' : Reaches Allowed t u) : Reaches Allowed s u := by
  induction h' with
  | refl => exact h
  | step _ hallowed ih => exact ih.step hallowed

lemma Reaches.endpoint?_eq {Allowed : Traffic → Move → Prop} (h : Reaches Allowed s t) (j : ℕ) :
    t.cluster.endpoint? j = s.cluster.endpoint? j := by
  induction h with
  | refl => rfl
  | @step t m _ _ ih => exact ((t.evolves_after m).endpoint?_eq j).trans ih

/-- What the calls of an operation keep, it keeps. -/
lemma Reaches.exists_operation {Allowed : Traffic → Move → Prop} {P : Operation → Prop}
    (hcall : ∀ (o : Operation) (c : Cluster) (fate : Fate) (peer : Endpoint)
      (rest : List Endpoint) (answer : Except CallError Errand) (f : Fated), P o →
      o.rest = peer :: rest →
      o.errand.ask (Fated.surroundings o.node default) peer ⟨c, [fate]⟩ = (answer, f) →
      P (o.note peer rest fate answer))
    (h : Reaches Allowed s t) (ho : s.operations[k]? = some o) (hP : P o) :
    ∃ o', t.operations[k]? = some o' ∧ P o' := by
  induction h with
  | refl => exact ⟨o, ho, hP⟩
  | @step t m _ _ ih =>
    obtain ⟨p, hp, hPp⟩ := ih
    have hlt : k < t.operations.length := (List.getElem?_eq_some_iff.mp hp).1
    obtain ⟨p', hp'⟩ : ∃ p', (t.after m).operations[k]? = some p' :=
      ⟨_, List.getElem?_eq_getElem (hlt.trans_le (t.length_operations_le m))⟩
    refine ⟨p', hp', ?_⟩
    cases continues hp' with
    | kept hkept => exact Option.some.inj (hp.symm.trans hkept) ▸ hPp
    | begun _ hk => exact absurd hk hlt.ne
    | called _ hcalled _ hrest hask _ =>
      cases hp.symm.trans hcalled
      exact hcall _ _ _ _ _ _ _ hPp hrest hask

end Traffic

/-- An operation replicates what a write has made at a replica, and turns to some peers
one after the other. -/
structure Operation.Serves (w : Write) (quorum : Quorum) (merged : Siblings)
    (peers : List Endpoint) (o : Operation) : Prop where
  node : o.node = w.node
  quorum : o.quorum = quorum
  errand : ∃ acks, o.errand = .put w merged acks
  peers : (o.heard.map Prod.fst ++ o.rest).Subperm peers

namespace Operation

variable {w : Write} {quorum : Quorum} {merged : Siblings} {peers : List Endpoint} {o : Operation}

/-- After a call the peer has been heard or is passed over. -/
lemma heard_note (o : Operation) (peer : Endpoint) (rest : List Endpoint) (fate : Fate)
    (answer : Except CallError Errand) :
    (o.note peer rest fate answer).heard = o.heard ∨
      ∃ failure, (o.note peer rest fate answer).heard = (peer, failure) :: o.heard := by
  cases fate with
  | heard =>
    cases answer with
    | ok x => exact .inr ⟨none, rfl⟩
    | error e => exact .inr ⟨some e, rfl⟩
  | lost e => exact .inl rfl
  | unheard e => exact .inl rfl

lemma confirmed_sublist (o : Operation) : o.confirmed.Sublist (o.heard.map Prod.fst) :=
  List.filter_sublist.map Prod.fst

/-- What an operation replies is its outcome. -/
lemma eq_outcome_of_reply {answer : Except Refusal Coordination.Outcome}
    (h : o.reply = some answer) : answer = o.errand.outcome o.quorum := by
  rw [reply] at h
  split at h
  · exact (Option.some.inj h).symm
  · cases h

/-- A call keeps what an operation serves. -/
lemma Serves.note {c : Cluster} {fate : Fate} {peer : Endpoint} {rest : List Endpoint}
    {answer : Except CallError Errand} {f : Fated} (h : o.Serves w quorum merged peers)
    (hrest : o.rest = peer :: rest)
    (hask : o.errand.ask (Fated.surroundings o.node default) peer ⟨c, [fate]⟩ = (answer, f)) :
    (o.note peer rest fate answer).Serves w quorum merged peers where
  node := h.node
  quorum := h.quorum
  errand := by
    obtain ⟨acks, herrand⟩ := h.errand
    cases answer with
    | error e => exact ⟨acks, herrand⟩
    | ok x =>
      rw [herrand] at hask
      obtain ⟨-, rfl, -⟩ := Errand.ask_put_eq_ok hask
      exact ⟨acks + 1, rfl⟩
  peers := by
    have hpeers := h.peers
    rw [hrest] at hpeers
    have hnote : (o.note peer rest fate answer).rest = rest := rfl
    rw [hnote]
    rcases o.heard_note peer rest fate answer with hheard | ⟨failure, hheard⟩
    · rw [hheard]
      have hsub : (o.heard.map Prod.fst ++ rest).Sublist (o.heard.map Prod.fst ++ peer :: rest) :=
        (List.sublist_cons_self peer rest).append_left _
      exact hsub.subperm.trans hpeers
    · rw [hheard]
      exact (List.perm_middle.symm.subperm).trans hpeers

/-- Those that have confirmed a write are among its peers, each as often as the list has
it at most. -/
lemma Serves.confirmed_subperm (h : o.Serves w quorum merged peers) :
    o.confirmed.Subperm peers :=
  (o.confirmed_sublist.trans (List.sublist_append_left _ _)).subperm.trans h.peers

end Operation

namespace Traffic

variable {s t : Traffic} {m : Move} {o : Operation}

/-! ### Confirmations -/

/-- A write replicates its version with others, the count of its confirmations is
right, and its own replica as well as each that has confirmed it know of them all. -/
structure Replicated (s : Traffic) (o : Operation) (w : Write) (merged : Siblings)
    (acks : ℕ) : Prop where
  made : w.version ∈ merged
  count : acks = o.confirmed.length + 1
  own : ∀ v ∈ merged, s.KnowsAt o.node w.key v.clock
  peers : ∀ e ∈ o.confirmed, ∃ j, s.cluster.endpoint? j = some e ∧
    ∀ v ∈ merged, s.KnowsAt j w.key v.clock

lemma Replicated.after {w : Write} {merged : Siblings} {acks : ℕ}
    (h : s.Replicated o w merged acks) (m : Move) : (s.after m).Replicated o w merged acks where
  made := h.made
  count := h.count
  own v hv := (h.own v hv).after m
  peers e he := by
    obtain ⟨j, hj, hknows⟩ := h.peers e he
    exact ⟨j, ((s.evolves_after m).endpoint?_eq j).trans hj, fun v hv => (hknows v hv).after m⟩

/-- A replica knows of all that an accepted write replicates. -/
lemma knowsAt_of_write {i : ℕ} {r r' : Replica} {key : String} {context : Clock}
    {value : Bytes} {merged : Siblings} {v : Version}
    (hr : s.cluster.replicas[i]? = some r) (hwrite : r.write key context value = .ok (merged, r'))
    (hcluster : t.cluster = s.cluster.modify i fun _ => r') (hv : v ∈ merged) :
    t.KnowsAt i key v.clock := by
  refine ⟨r', ?_, ?_⟩
  · rw [hcluster, Cluster.getElem?_modify_self hr]
  · rw [Store.Knows, Replica.versions_of_write hwrite]
    exact Siblings.covers_of_mem hv

/-- A peer that confirms a write knows of what was replicated then. -/
lemma knowsAt_of_replicate {j : ℕ} {q : Replica} {key : String} {versions : Siblings}
    {v : Version} (hq : s.cluster.replicas[j]? = some q) (hup : q.outage.down = false)
    (hv : v ∈ versions) (hcluster : t.cluster = s.cluster.set j (q.replicate key versions).2) :
    t.KnowsAt j key v.clock := by
  have hlt : j < s.cluster.replicas.length := (List.getElem?_eq_some_iff.mp hq).1
  refine ⟨(q.replicate key versions).2, ?_, ?_⟩
  · rw [hcluster, Cluster.set, List.getElem?_set_self hlt]
  · rw [Replica.replicate_eq, hup]
    exact Store.knows_absorb_of_mem hv

/-- What is known of the confirmations of all writes stays true. -/
lemma replicated_after (haddressed : s.cluster.Addressed)
    (h : ∀ o ∈ s.operations, ∀ w merged acks, o.errand = .put w merged acks →
      s.Replicated o w merged acks) :
    ∀ o ∈ (s.after m).operations, ∀ w merged acks, o.errand = .put w merged acks →
      (s.after m).Replicated o w merged acks := by
  intro o ho w merged acks hput
  obtain ⟨k, hk⟩ := List.mem_iff_getElem?.mp ho
  cases continues hk with
  | kept hkept => exact (h o (List.mem_of_getElem? hkept) w merged acks hput).after m
  | begun _ _ hr hbegin hafter =>
    rcases Replica.begin_eq_some hbegin with
      ⟨key, context, value, merged', -, hwrite, rfl⟩ | ⟨-, ⟨key, -, rfl⟩ | ⟨-, rfl⟩⟩
    · cases hput
      exact ⟨Replica.mem_of_write hwrite, rfl,
        fun v => knowsAt_of_write hr hwrite (congrArg Traffic.cluster hafter),
        fun e he => absurd he List.not_mem_nil⟩
    · cases hput
    · cases hput
  | @called fate o peer rest answer f _ hcalled _ hrest hask hafter =>
    cases answer with
    | error e =>
      have hold := (h o (List.mem_of_getElem? hcalled) w merged acks hput).after m
      have hsame : (o.note peer rest fate (.error e)).confirmed = o.confirmed := by
        cases fate <;> rfl
      exact ⟨hold.made, hsame ▸ hold.count, hold.own, hsame ▸ hold.peers⟩
    | ok x =>
      obtain ⟨merged', acks', herrand⟩ : ∃ merged' acks', o.errand = .put w merged' acks' := by
        have hwrite? : o.errand.write? = some w := by
          rw [← Errand.write?_of_ask_eq_ok hask]
          exact congrArg Errand.write? hput
        exact Errand.exists_of_write? hwrite?
      rw [herrand] at hask
      obtain ⟨rfl, rfl, j, q, hj, hq, hup, hset⟩ := Errand.ask_put_eq_ok hask
      cases hput
      have hold := (h o (List.mem_of_getElem? hcalled) w merged acks' herrand).after m
      have hmore : (o.note peer rest .heard (.ok (.put w merged (acks' + 1)))).confirmed
          = peer :: o.confirmed := rfl
      refine ⟨hold.made, by rw [hmore, hold.count]; rfl, hold.own, fun e he => ?_⟩
      rw [hmore] at he
      rcases List.mem_cons.mp he with rfl | he
      · refine ⟨j, ?_, fun v hv =>
          knowsAt_of_replicate hq hup hv ((congrArg Traffic.cluster hafter).trans hset)⟩
        exact ((s.evolves_after m).endpoint?_eq j).trans (haddressed.of_whoAnswers? hj)
      · exact hold.peers e he

/-- **Confirmations.**  In every state that is reached, whatever lists are given to
replicas, what is known of the confirmations of writes is true. -/
theorem replicated_of_reaches {Allowed : Traffic → Move → Prop} {replicas : List Replica}
    (h : Reaches Allowed (start (.ofReplicas replicas)) s) :
    s.cluster.Addressed ∧
      ∀ o ∈ s.operations, ∀ w merged acks, o.errand = .put w merged acks →
        s.Replicated o w merged acks := by
  induction h with
  | refl => exact ⟨Cluster.addressed_ofReplicas replicas, by simp [start]⟩
  | @step t m _ _ ih => exact ⟨ih.1.evolves (t.evolves_after m), replicated_after ih.1 ih.2⟩

/-! ### Receipts -/

/-- A write that is accepted begins an operation that serves it. -/
lemma exists_serves_of_write {i : ℕ} {r r' : Replica} {key : String} {context : Clock}
    {value : Bytes} {merged : Siblings} (hr : s.cluster.replicas[i]? = some r)
    (hwrite : r.write key context value = .ok (merged, r')) :
    ∃ o, (s.after (.request i (.put key context value))).operations[s.operations.length]? = some o ∧
      o.Serves ⟨i, r.id, key, context, value⟩ r.quorum merged r.peers := by
  have hbegin : r.begin i (.put key context value)
      = some (⟨i, r.quorum, .put ⟨i, r.id, key, context, value⟩ merged 1, r.peers, []⟩, r') := by
    rw [Replica.begin, hwrite]
  refine ⟨⟨i, r.quorum, .put ⟨i, r.id, key, context, value⟩ merged 1, r.peers, []⟩, ?_,
    rfl, rfl, ⟨1, rfl⟩, List.Subperm.refl r.peers⟩
  change (s.ask i (.put key context value)).operations[s.operations.length]? = _
  rw [ask, hr, Option.bind_some, hbegin]
  exact List.getElem?_concat_length

/-- The own replica of a write and those at the different endpoints that have confirmed
it are so many replicas. -/
lemma exists_holders {own : Endpoint} {peers : List Endpoint} {w : Write}
    {quorum : Quorum} {merged : Siblings} {acks : ℕ} (h : t.Replicated o w merged acks)
    (hserves : o.Serves w quorum merged peers) (hown : t.cluster.endpoint? w.node = some own)
    (hpeers : own ∉ peers) :
    ∃ nodes : List ℕ, nodes.Nodup ∧ w.node ∈ nodes ∧
      nodes.length = o.confirmed.dedup.length + 1 ∧
      ∀ j ∈ nodes, ∀ v ∈ merged, t.KnowsAt j w.key v.clock := by
  obtain ⟨nodes, hnodes, hknows⟩ := exists_map_eq_map_some
    fun e (he : e ∈ o.confirmed.dedup) => h.peers e (List.mem_dedup.mp he)
  have hlength : nodes.length = o.confirmed.dedup.length := by
    simpa using congrArg List.length hnodes
  have hnot : own ∉ o.confirmed.dedup := fun he =>
    hpeers (hserves.confirmed_subperm.subset (List.mem_dedup.mp he))
  -- different endpoints are those of different replicas
  have hnodup : ((w.node :: nodes).map t.cluster.endpoint?).Nodup := by
    rw [List.map_cons, hnodes, hown, ← List.map_cons]
    exact (List.nodup_cons.mpr ⟨hnot, List.nodup_dedup _⟩).map (Option.some_injective _)
  refine ⟨w.node :: nodes, hnodup.of_map, List.mem_cons_self, by simp [hlength], ?_⟩
  exact List.forall_mem_cons.mpr ⟨hserves.node ▸ h.own, hknows⟩

/-- **Receipts.**  Let a replica accept a write in some state, with whatever preference
list it has been given, and let anything happen then.  When the write has ended, its
receipt counts one more than the entries of the list that have confirmed, and there are
different replicas, its own and one for each different peer that has confirmed, that
know of every version that was merged.  If the list names no other replica twice, these
are as many as the receipt counts, so a quorum that is met is one of replicas. -/
theorem holders_of_receipt {replicas : List Replica}
    (hs : Reaches (fun _ _ => True) (start (.ofReplicas replicas)) s) {i : ℕ} {r r' : Replica}
    (hr : s.cluster.replicas[i]? = some r) {key : String} {context : Clock} {value : Bytes}
    {merged : Siblings} (hwrite : r.write key context value = .ok (merged, r'))
    (ht : Reaches (fun _ _ => True) (s.after (.request i (.put key context value))) t) :
    ∃ o, t.operations[s.operations.length]? = some o ∧
      ∀ receipt, o.reply = some (.ok (.put receipt)) →
        receipt.acks = o.confirmed.length + 1 ∧
        (receipt.met = true ↔ r.quorum.write ≤ receipt.acks) ∧
        ⟨context.increment r.id, value⟩ ∈ merged ∧
        ∃ nodes : List ℕ, nodes.Nodup ∧ i ∈ nodes ∧
          nodes.length = o.confirmed.dedup.length + 1 ∧
          (∀ j ∈ nodes, ∀ v ∈ merged, t.KnowsAt j key v.clock) ∧
          (r.peers.Nodup → nodes.length = receipt.acks ∧
            (receipt.met = true → r.quorum.write ≤ nodes.length)) := by
  obtain ⟨o₀, ho₀, hserves₀⟩ := exists_serves_of_write hr hwrite
  obtain ⟨o, ho, hserves⟩ := ht.exists_operation
    (fun _ _ _ _ _ _ _ h hrest hask => h.note hrest hask) ho₀ hserves₀
  refine ⟨o, ho, fun receipt hreply => ?_⟩
  obtain ⟨acks, herrand⟩ := hserves.errand
  have hreached : Reaches (fun _ _ => True) (start (.ofReplicas replicas)) t :=
    (hs.step trivial).trans ht
  have hreplicated : t.Replicated o ⟨i, r.id, key, context, value⟩ merged acks :=
    (replicated_of_reaches hreached).2 o (List.mem_of_getElem? ho) _ _ _ herrand
  have hreceipt : receipt = ⟨acks, r.quorum.write⟩ := by
    have houtcome := Operation.eq_outcome_of_reply hreply
    rw [herrand, hserves.quorum] at houtcome
    cases houtcome
    rfl
  have hacks : receipt.acks = o.confirmed.length + 1 := by rw [hreceipt, hreplicated.count]
  have hmet : receipt.met = true ↔ r.quorum.write ≤ receipt.acks := by
    rw [hreceipt, Receipt.met, decide_eq_true_iff]
  have hown : t.cluster.endpoint? i = some r.endpoint := by
    rw [ht.endpoint?_eq, (s.evolves_after _).endpoint?_eq]
    exact Cluster.endpoint?_of_getElem? hr
  obtain ⟨nodes, hnodup, hi, hlength, hknows⟩ :=
    exists_holders hreplicated hserves hown (by simp [Replica.peers])
  refine ⟨hacks, hmet, hreplicated.made, nodes, hnodup, hi, hlength, hknows, fun hpeers => ?_⟩
  have hconfirmed : o.confirmed.Nodup := by
    obtain ⟨l, hl, hsub⟩ := hserves.confirmed_subperm
    exact hl.nodup_iff.mp (hpeers.sublist hsub)
  have heq : nodes.length = receipt.acks := by rw [hlength, hconfirmed.dedup, hacks]
  exact ⟨heq, fun h => heq ▸ hmet.mp h⟩

/-- A replica accepts a write besides a version of another replica, and its peer confirms
both. -/
theorem holders_of_receipt_pair :
    let s := (start (.pair ⟨2, 1⟩)).run
      [.request 1 (.put "k" .empty [1]), .request 1 .gossip, .call 1 .heard]
    let t := (s.after (.request 0 (.put "k" .empty [2]))).run [.call 2 .heard]
    ∃ o receipt, t.operations[2]? = some o ∧ o.reply = some (.ok (.put receipt)) ∧
      receipt.acks = 2 ∧ receipt.met = true ∧
      ∃ nodes : List ℕ, nodes.Nodup ∧ nodes.length = 2 ∧
        ∀ j ∈ nodes, t.KnowsAt j "k" (.ofPairs [("n1", 1)]) ∧
          t.KnowsAt j "k" (.ofPairs [("n2", 1)]) := by
  intro s t
  have hs : Reaches (fun _ _ => True) (start (.pair ⟨2, 1⟩)) s :=
    Reaches.refl.run (by simp [Allows])
  have ht : Reaches (fun _ _ => True) (s.after (.request 0 (.put "k" .empty [2]))) t :=
    Reaches.refl.run (by simp [Allows])
  obtain ⟨r, merged, r', hr, hwrite, hfirst, hsecond, hpeers⟩ :
      ∃ r merged r', s.cluster.replicas[0]? = some r ∧
        r.write "k" .empty [2] = .ok (merged, r') ∧
        ⟨.ofPairs [("n1", 1)], [2]⟩ ∈ merged ∧ ⟨.ofPairs [("n2", 1)], [1]⟩ ∈ merged ∧
        r.peers.Nodup :=
    ⟨_, _, _, rfl, rfl, by decide +kernel, by decide +kernel, by decide +kernel⟩
  obtain ⟨o, ho, hreceipt⟩ := holders_of_receipt hs hr hwrite ht
  have ho' : t.operations[2]? = some o := ho
  have hreply : o.reply = some (.ok (.put ⟨2, 2⟩)) := by
    have hsome : t.operations[2]?.bind Operation.reply = some (.ok (.put ⟨2, 2⟩)) := rfl
    rwa [ho'] at hsome
  obtain ⟨-, -, -, nodes, hnodup, -, -, hknows, hcount⟩ := hreceipt ⟨2, 2⟩ hreply
  exact ⟨o, ⟨2, 2⟩, ho', hreply, rfl, rfl, nodes, hnodup, (hcount hpeers).1,
    fun j hj => ⟨hknows j hj _ hfirst, hknows j hj _ hsecond⟩⟩

/-- **A list that names a peer twice.**  A replica is given such a list and accepts a
write.  The receipt counts three replicas and the quorum is met, while there are two. -/
theorem acks_of_repeated :
    let peer : Endpoint := ⟨"localhost", 8001⟩
    let s := (start (.pair ⟨3, 1⟩)).run
      [.request 0 (.assignList [⟨"localhost", 8000⟩, peer, peer]),
        .request 0 (.put "k" .empty [1]), .call 0 .heard, .call 0 .heard]
    Reaches Closed (start (.pair ⟨3, 1⟩)) s ∧
      ∃ o write merged receipt, s.operations[0]? = some o ∧
        o.errand = .put write merged receipt.acks ∧ o.reply = some (.ok (.put receipt)) ∧
        receipt.acks = 3 ∧ receipt.met = true ∧
        ∀ nodes : List ℕ, nodes.Nodup →
          (∀ j ∈ nodes, ∀ v ∈ merged, s.KnowsAt j write.key v.clock) →
          nodes.length < receipt.acks := by
  intro peer s
  refine ⟨Reaches.refl.run (by simp [Allows, Closed]), ⟨0, ⟨3, 1⟩,
    .put ⟨0, "n1", "k", .empty, [1]⟩ [⟨.ofPairs [("n1", 1)], [1]⟩] 3, [],
    [(peer, none), (peer, none)]⟩, _, _, ⟨3, 3⟩, rfl, rfl, rfl, rfl, rfl, ?_⟩
  intro nodes hnodup hknows
  have hrange : nodes ⊆ List.range 2 := fun j hj => by
    obtain ⟨q, hq, -⟩ := hknows j hj _ (List.mem_singleton_self _)
    exact List.mem_range.mpr (List.getElem?_eq_some_iff.mp hq).1
  have hle : nodes.length ≤ 2 := (List.subperm_of_subset hnodup hrange).length_le
  exact Nat.lt_succ_of_le hle

end Traffic

end QuorumStore
