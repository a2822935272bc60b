/-
Peers that are slow, and peers that fail at once.

* `Coordination.perform_alike`: requests go alike where calls do;
* `Conducted.perform_of_nil`: so they go as links say if peers deal with calls as links say;
* `Conducted.Keeps.exchange`: a call that is given up may as well have failed at once, while
  nothing becomes due;
* `Conducted.perform_of_conducts`: trouble with peers costs bounded time, and comes to what it
  would have come to if such calls had failed at once.
-/
import QuorumStore.Proofs.Patience
import QuorumStore.Proofs.Refusals

namespace QuorumStore

/-! ### Requests that go alike -/

namespace Coordination

variable {σ τ α β : Type} {R : σ → τ → Prop} {G : σ → Prop} {s : σ} {s' : τ}
variable {ask : Endpoint → σ → Except CallError α × σ}
variable {ask' : Endpoint → τ → Except CallError α × τ}

/-- Calls in states that are related come to the same answer, or both fail, and lead to states
that are related.  This has to be so only if the first state satisfies a condition afterwards; it
then satisfied the condition before. -/
structure Alike (R : σ → τ → Prop) (G : σ → Prop) (ask : Endpoint → σ → Except CallError α × σ)
    (ask' : Endpoint → τ → Except CallError α × τ) : Prop where
  before : ∀ e s, G (ask e s).2 → G s
  answer : ∀ e {s s'}, R s s' → G (ask e s).2 → (ask e s).1.toOption = (ask' e s').1.toOption
  state : ∀ e {s s'}, R s s' → G (ask e s).2 → R (ask e s).2 (ask' e s').2

/-- Walks go alike if calls do. -/
lemma walk_alike (h : Alike R G ask ask') (enough : β → Bool) (add : β → α → β)
    (peers : List Endpoint) (b : β) (hR : R s s') (hG : G (walk ask enough add peers b s).2) :
    (walk ask enough add peers b s).1 = (walk ask' enough add peers b s').1 ∧
      R (walk ask enough add peers b s).2 (walk ask' enough add peers b s').2 := by
  have hbefore : ∀ peers b s, G (walk ask enough add peers b s).2 → G s := fun peers b s =>
    walk_rel (R := fun s t => G t → G s) (fun _ => id) (fun h h' hG => h (h' hG)) h.before
      enough add peers b s
  induction peers generalizing b s s' with
  | nil => exact ⟨rfl, hR⟩
  | cons e rest ih =>
    rw [walk] at hG
    rw [walk, walk]
    by_cases henough : enough b = true
    · rw [if_pos henough, if_pos henough]
      exact ⟨rfl, hR⟩
    · rw [if_neg henough] at hG ⊢
      rw [if_neg henough]
      have hcalled : G (ask e s).2 := by
        generalize ask e s = call at hG
        obtain ⟨answer, u⟩ := call
        cases answer <;> exact hbefore _ _ _ hG
      have hanswer := h.answer e hR hcalled
      have hstate := h.state e hR hcalled
      generalize ask e s = call, ask' e s' = call' at hG hanswer hstate
      obtain ⟨answer, u⟩ := call
      obtain ⟨answer', u'⟩ := call'
      cases answer with
      | ok a =>
        cases answer' with
        | ok a' =>
          obtain rfl : a = a' := Option.some.inj hanswer
          exact ih _ hstate hG
        | error cause' => cases hanswer
      | error cause =>
        cases answer' with
        | ok a' => cases hanswer
        | error cause' => exact ih _ hstate hG

/-- Requests go alike if calls do. -/
theorem perform_alike {env : Surroundings σ} {env' : Surroundings τ}
    (hreplicate : ∀ key versions, Alike R G (counted env .replicate (env.replicate · key versions))
      (counted env' .replicate (env'.replicate · key versions)))
    (hfetch : ∀ key, Alike R G (counted env .fetch (env.fetch · key))
      (counted env' .fetch (env'.fetch · key)))
    (habsorb : ∀ pushed, Alike R G (counted env .absorb (env.absorb · pushed))
      (counted env' .absorb (env'.absorb · pushed)))
    (hself : env.self s = env'.self s')
    (hupdate : ∀ q, R (env.update (fun _ => q) s) (env'.update (fun _ => q) s')) (hR : R s s')
    {request : Request}
    (hmethod : request.method = .put ∨ request.method = .get ∨ request.method = .gossip)
    (hG : G (perform env request s).2) :
    (perform env request s).1 = (perform env' request s').1 ∧
      R (perform env request s).2 (perform env' request s').2 := by
  cases request with
  | put key context value =>
    simp only [perform, put, ← hself] at hG ⊢
    cases hwrite : (env.self s).write key context value with
    | error e => exact ⟨rfl, hR⟩
    | ok accepted =>
      obtain ⟨merged, q⟩ := accepted
      simp only [hwrite] at hG ⊢
      obtain ⟨hacks, hstate⟩ := walk_alike (hreplicate key merged) _ _ _ _ (hupdate q) hG
      exact ⟨by rw [hacks], hstate⟩
  | get key =>
    simp only [perform, get, ← hself] at hG ⊢
    cases havailable : (env.self s).outage.available with
    | error e => exact ⟨rfl, hR⟩
    | ok _ =>
      simp only [havailable] at hG ⊢
      obtain ⟨hgot, hstate⟩ := walk_alike (hfetch key) _ _ _ _ hR hG
      exact ⟨congrArg (fun got : ℕ × Siblings => Except.map Outcome.get
        (if got.2.isEmpty then .error (Refusal.notFound key) else .ok got.2)) hgot, hstate⟩
  | gossip =>
    simp only [perform, gossip, ← hself] at hG ⊢
    cases havailable : (env.self s).outage.available with
    | error e => exact ⟨rfl, hR⟩
    | ok _ =>
      simp only [havailable] at hG ⊢
      obtain ⟨hreached, hstate⟩ := walk_alike (habsorb _) _ _ _ _ hR hG
      exact ⟨by rw [hreached], hstate⟩
  | _ => simp [Request.method] at hmethod

end Coordination

/-! ### Counting -/

/-- What a replica does for a peer does not depend on what it has counted. -/
def Overlooking {α : Type} (serve : Replica → Except Refusal α × Replica) : Prop :=
  ∀ r, (serve r).1 = (serve r.uncounted).1 ∧
    (serve r).2.uncounted = (serve r.uncounted).2.uncounted

lemma overlooking_replicate (key : String) (versions : Siblings) :
    Overlooking (·.replicate key versions) := fun r => by
  simp only [Replica.replicate_eq, Replica.uncounted]
  split <;> exact ⟨rfl, rfl⟩

lemma overlooking_fetch (key : String) : Overlooking (Cluster.serveFetch key) :=
  fun _ => ⟨rfl, rfl⟩

lemma overlooking_absorb (pushed : Store) : Overlooking (·.absorb pushed) := fun r => by
  simp only [Replica.absorb_eq, Replica.uncounted]
  split <;> exact ⟨rfl, rfl⟩

/-- A call does not depend on what replicas have counted. -/
lemma Cluster.deliver_of_uncounted_eq {α : Type} {serve : Replica → Except Refusal α × Replica}
    (hserve : Overlooking serve) {c c' : Cluster} (h : c.uncounted = c'.uncounted) (e : Endpoint) :
    (c.deliver e serve).1 = (c'.deliver e serve).1 ∧
      (c.deliver e serve).2.uncounted = (c'.deliver e serve).2.uncounted := by
  obtain ⟨hreplicas, hdirectory⟩ := uncounted_eq_iff.mp h
  have hwho : c.whoAnswers? e = c'.whoAnswers? e := by rw [whoAnswers?, whoAnswers?, hdirectory]
  rw [deliver, deliver, hwho]
  cases c'.whoAnswers? e with
  | none => exact ⟨rfl, h⟩
  | some i =>
    have hi := hreplicas i
    dsimp only
    cases hr : c.replicas[i]? with
    | none =>
      rw [hr, Option.map_none, eq_comm, Option.map_eq_none_iff] at hi
      rw [hi]
      exact ⟨rfl, h⟩
    | some r =>
      rw [hr, Option.map_some, eq_comm, Option.map_eq_some_iff] at hi
      obtain ⟨r', hr', huncounted⟩ := hi
      rw [hr']
      have hanswer : (serve r).1 = (serve r').1 := by
        rw [(hserve r).1, (hserve r').1, huncounted]
      have hreplica : (serve r).2.uncounted = (serve r').2.uncounted := by
        rw [(hserve r).2, (hserve r').2, huncounted]
      refine ⟨by dsimp only; rw [hanswer], ?_⟩
      simp only [uncounted, set, List.map_set, hreplica, mk.injEq] at h ⊢
      exact ⟨by rw [h.1], h.2⟩

/-! ### Calls that fail at once -/

namespace Conduct

variable {α : Type} {patience : ℕ} {c c' : Conduct}

/-- The call fails at once, or as soon as it has been served if it is served. -/
def failAtOnce (patience : ℕ) (error : CallError) : Conduct → Conduct
  | served arrival _ =>
    if arrival ≤ patience then served arrival (.failure 0 error) else failed 0 error
  | _ => failed 0 error

/-- A call that is given up may as well have failed at once. -/
def FailsInstead (patience : ℕ) (c c' : Conduct) : Prop :=
  c' = c ∨ c.late patience = true ∧ ∃ error, c' = c.failAtOnce patience error

lemma reaches_failAtOnce (patience : ℕ) (error : CallError) (c : Conduct) :
    (c.failAtOnce patience error).reaches patience = c.reaches patience := by
  cases c with
  | served arrival echo =>
    rw [failAtOnce]
    split_ifs with h
    · rfl
    · exact (decide_eq_false h).symm
  | failed ms error => rfl
  | stalled => rfl

lemma hears_failAtOnce (patience : ℕ) (e : Endpoint) (answer : Except CallError α)
    (error : CallError) (c : Conduct) :
    (c.failAtOnce patience error).hears patience e answer = .error error := by
  cases c with
  | served arrival echo =>
    rw [failAtOnce]
    split_ifs with h
    · exact if_pos h
    · rfl
  | failed ms error => rfl
  | stalled => rfl

lemma time_of_late (h : c.late patience = true) : c.time patience = patience := by
  rw [late] at h
  rw [time]
  split at h
  · exact min_eq_right (of_decide_eq_true h).le
  · rfl

namespace FailsInstead

lemma reaches (h : c.FailsInstead patience c') : c'.reaches patience = c.reaches patience := by
  rcases h with rfl | ⟨-, error, rfl⟩
  · rfl
  · exact reaches_failAtOnce patience error c

lemma time_le (h : c.FailsInstead patience c') : c'.time patience ≤ c.time patience := by
  rcases h with rfl | ⟨hlate, error, rfl⟩
  · exact le_rfl
  · rw [time_of_late hlate]
    exact Conduct.time_le patience _

lemma toOption_hears (h : c.FailsInstead patience c') (e : Endpoint)
    (answer : Except CallError α) :
    (c.hears patience e answer).toOption = (c'.hears patience e answer).toOption := by
  rcases h with rfl | ⟨hlate, error, rfl⟩
  · rfl
  · rw [hears_of_late hlate, hears_failAtOnce]
    rfl

end FailsInstead

end Conduct

namespace Conducted

variable {α : Type} {i : ℕ} {r : Replica} {method : Method} {patience deadline : ℕ} {e : Endpoint}
variable {serve : Replica → Except Refusal α × Replica} {s s' : Conducted}

/-! ### Links -/

/-- A call for which no conduct is given goes over its link. -/
lemma exchange_of_nil (patience : ℕ) (e : Endpoint)
    (serve : Replica → Except Refusal α × Replica) (h : s.conducts = []) :
    (exchange patience e serve s).1 = (Timeline.exchange patience e serve s.time).1 ∧
      (exchange patience e serve s).2.time = (Timeline.exchange patience e serve s.time).2 ∧
      (exchange patience e serve s).2.conducts = [] := by
  have hnext : s.next e = (s.time.link e).conduct := by
    rw [next, h]
    rfl
  have hcarry : (s.next e).carry patience e serve s.time =
      Timeline.exchange patience e serve s.time := by
    rw [hnext, Conduct.carry_conduct]
    rfl
  rw [← hcarry]
  exact ⟨rfl, rfl, by simp only [exchange, h, List.tail_nil]⟩

lemma counted_of_nil (i : ℕ) (r : Replica) (method : Method)
    (serve : Replica → Except Refusal α × Replica) (e : Endpoint) (h : s.conducts = []) :
    let call := Coordination.counted (surroundings i r) method
      (fun e => exchange r.timeout e serve) e s
    let call' := Coordination.counted (Timeline.surroundings i r) method
      (fun e => Timeline.exchange r.timeout e serve) e s.time
    call.1 = call'.1 ∧ call.2.time = call'.2 ∧ call.2.conducts = [] := by
  obtain ⟨hanswer, htime, hnil⟩ := exchange_of_nil r.timeout e serve h
  simp only [Coordination.counted]
  generalize exchange r.timeout e serve s = call, Timeline.exchange r.timeout e serve s.time = call'
    at hanswer htime hnil
  obtain ⟨answer, u⟩ := call
  obtain ⟨answer', t⟩ := call'
  cases hanswer
  cases htime
  cases answer <;> exact ⟨rfl, rfl, hnil⟩

lemma alike_of_nil (i : ℕ) (r : Replica) (method : Method)
    (serve : Replica → Except Refusal α × Replica) :
    Coordination.Alike (fun (s : Conducted) (t : Timeline) => s.time = t ∧ s.conducts = [])
      (fun _ => True)
      (Coordination.counted (surroundings i r) method fun e => exchange r.timeout e serve)
      (Coordination.counted (Timeline.surroundings i r) method
        fun e => Timeline.exchange r.timeout e serve) where
  before _ _ := id
  answer e s t h _ := by
    obtain ⟨rfl, hnil⟩ := h
    exact congrArg Except.toOption (counted_of_nil i r method serve e hnil).1
  state e s t h _ := by
    obtain ⟨rfl, hnil⟩ := h
    exact (counted_of_nil i r method serve e hnil).2

/-- **Links.**  If no conducts are given, then requests go as links say. -/
theorem perform_of_nil (t : Timeline) (i : ℕ) (r : Replica) (attempts : List Attempt)
    {request : Request}
    (hmethod : request.method = .put ∨ request.method = .get ∨ request.method = .gossip) :
    let run := Coordination.perform (surroundings i r) request ⟨t, [], attempts⟩
    let run' := Coordination.perform (Timeline.surroundings i r) request t
    run.1 = run'.1 ∧ run.2.time = run'.2 := by
  intro run run'
  have hrun : run.1 = run'.1 ∧ run.2.time = run'.2 ∧ run.2.conducts = [] :=
    Coordination.perform_alike
      (fun key versions => alike_of_nil i r .replicate (·.replicate key versions))
      (fun key => alike_of_nil i r .fetch (Cluster.serveFetch key))
      (fun pushed => alike_of_nil i r .absorb (·.absorb pushed))
      rfl (fun _ => ⟨rfl, rfl⟩) ⟨rfl, rfl⟩ hmethod trivial
  exact ⟨hrun.1, hrun.2.1⟩

/-! ### Two runs -/

/-- States of two clusters in which calls go alike until a deadline.  The second one has not
waited for calls that are given up in the first. -/
structure Keeps (patience deadline : ℕ) (s s' : Conducted) : Prop where
  cluster : s.time.cluster.uncounted = s'.time.cluster.uncounted
  links : s.time.links = s'.time.links
  quiet : ∀ p ∈ s.time.agenda, deadline ≤ p.1
  quiet' : ∀ p ∈ s'.time.agenda, deadline ≤ p.1
  now : s'.time.now ≤ s.time.now
  conducts : List.Forall₂ (Conduct.FailsInstead patience) s.conducts s'.conducts

/-- The next call is the same in both, or it is given up in the first and fails in the second. -/
lemma Keeps.next (h : Keeps patience deadline s s') (e : Endpoint) :
    (s.next e).FailsInstead patience (s'.next e) := by
  have hlink : s.time.link e = s'.time.link e := by rw [Timeline.link, Timeline.link, h.links]
  have hconducts := h.conducts
  rw [Conducted.next, Conducted.next, hlink]
  generalize s.conducts = conducts, s'.conducts = conducts' at hconducts
  cases hconducts with
  | nil => exact .inl rfl
  | cons hfirst hrest => exact hfirst

/-- **A call that is given up** may as well have failed at once. -/
lemma Keeps.exchange (h : Keeps patience deadline s s') (hserve : Overlooking serve)
    (hdeadline : (exchange patience e serve s).2.time.now ≤ deadline) :
    (exchange patience e serve s).1.toOption = (exchange patience e serve s').1.toOption ∧
      Keeps patience deadline (exchange patience e serve s).2 (exchange patience e serve s').2 := by
  have hnext := h.next e
  have hnow : s.time.now + (s.next e).time patience ≤ deadline :=
    (Conduct.now_carry (s.next e)).symm.le.trans hdeadline
  have hnow' : s'.time.now + (s'.next e).time patience ≤ s.time.now + (s.next e).time patience :=
    Nat.add_le_add h.now hnext.time_le
  have hcarry : (s.next e).carry patience e serve s.time = _ :=
    Conduct.carry_of_quiet fun p hp => hnow.trans (h.quiet p hp)
  have hcarry' : (s'.next e).carry patience e serve s'.time = _ :=
    Conduct.carry_of_quiet fun p hp => (hnow'.trans hnow).trans (h.quiet' p hp)
  obtain ⟨hanswer, hcluster⟩ := Cluster.deliver_of_uncounted_eq hserve h.cluster e
  simp only [Conducted.exchange, hcarry, hcarry', hnext.reaches, ← hanswer]
  refine ⟨hnext.toOption_hears e _, ?_, h.links, h.quiet, h.quiet', hnow', ?_⟩
  · split
    · exact hcluster
    · exact h.cluster
  · simpa using List.forall₂_drop 1 h.conducts

/-- It does not matter which failures are counted. -/
lemma Keeps.update (h : Keeps patience deadline s s') (i : ℕ) (r : Replica)
    {f f' : Replica → Replica}
    (hf : ∀ q, (f q).uncounted = q.uncounted) (hf' : ∀ q, (f' q).uncounted = q.uncounted) :
    Keeps patience deadline ((surroundings i r).update f s) ((surroundings i r).update f' s') where
  cluster := ((Cluster.uncounted_modify_count hf s.time.cluster i).trans h.cluster).trans
    (Cluster.uncounted_modify_count hf' s'.time.cluster i).symm
  links := h.links
  quiet := h.quiet
  quiet' := h.quiet'
  now := h.now
  conducts := h.conducts

lemma alike_of_keeps (i : ℕ) (r : Replica) (method : Method) (hserve : Overlooking serve) :
    Coordination.Alike (Keeps r.timeout deadline) (fun s => s.time.now ≤ deadline)
      (Coordination.counted (surroundings i r) method fun e => exchange r.timeout e serve)
      (Coordination.counted (surroundings i r) method fun e => exchange r.timeout e serve) := by
  have hcall : ∀ e {s s' : Conducted}, Keeps r.timeout deadline s s' →
      let call := Coordination.counted (surroundings i r) method
        (fun e => exchange r.timeout e serve) e s
      let call' := Coordination.counted (surroundings i r) method
        (fun e => exchange r.timeout e serve) e s'
      call.2.time.now ≤ deadline →
        call.1.toOption = call'.1.toOption ∧ Keeps r.timeout deadline call.2 call'.2 := by
    intro e s s' h
    have hexchange := h.exchange (e := e) hserve
    simp only [Coordination.counted]
    generalize exchange r.timeout e serve s = call, exchange r.timeout e serve s' = call'
      at hexchange
    obtain ⟨answer, u⟩ := call
    obtain ⟨answer', u'⟩ := call'
    cases answer with
    | ok a =>
      cases answer' with
      | ok a' => exact hexchange
      | error cause' => exact fun hdeadline => by cases (hexchange hdeadline).1
    | error cause =>
      cases answer' with
      | ok a' => exact fun hdeadline => by cases (hexchange hdeadline).1
      | error cause' =>
        exact fun hdeadline => ⟨rfl, (hexchange hdeadline).2.update i r (fun _ => rfl) fun _ => rfl⟩
  refine ⟨fun e s hdeadline => ?_, fun e s s' h hdeadline => (hcall e h hdeadline).1,
    fun e s s' h hdeadline => (hcall e h hdeadline).2⟩
  have hnow := (called_counted i r method serve e s).now
  exact (Nat.le_add_right _ _).trans (hnow.symm.le.trans hdeadline)

/-! ### Requests -/

section Requests

variable {t : Timeline} {request : Request}

lemma Made.of_update {peers : List Endpoint} {made : List Attempt} {f : Replica → Replica}
    (h : Made patience peers made ((surroundings i r).update f s) s') :
    Made patience peers made s s' :=
  ⟨h.attempts, h.now, h.peers, h.conducts, h.late⟩

/-- A write calls peers until enough have confirmed it. -/
lemma exists_put (hself : (surroundings i r).self s = r) (key : String) (context : Clock)
    (value : Bytes) :
    let run := Coordination.put (surroundings i r) key context value s
    ∃ made, Made r.timeout r.peers made s run.2 ∧ ∀ receipt, run.1 = .ok receipt →
      receipt.acks = 1 + made.countP Attempt.succeeded ∧
        (receipt.met = false → made.map Attempt.peer = r.peers) := by
  simp only [Coordination.put, hself]
  cases hwrite : r.write key context value with
  | error e => exact ⟨[], Made.nil, fun _ h => by cases h⟩
  | ok accepted =>
    obtain ⟨merged, q⟩ := accepted
    obtain ⟨made, hmade, hcount, hall⟩ := exists_walk i r .replicate (·.replicate key merged)
      (fun acks => r.quorum.write ≤ acks) (fun acks _ => acks + 1) id (fun _ _ => rfl) r.peers 1
      ((surroundings i r).update (fun _ => q) s)
    refine ⟨made, hmade.of_update, fun receipt h => ?_⟩
    obtain rfl := Except.ok.inj h
    exact ⟨hcount, fun hmet => hall (ne_true_of_eq_false hmet)⟩

/-- A read calls peers until enough have answered. -/
lemma exists_get (hself : (surroundings i r).self s = r) (key : String) :
    ∃ made, Made r.timeout r.peers made s (Coordination.get (surroundings i r) key s).2 ∧
      (r.outage.down = false → 1 + made.countP Attempt.succeeded < r.quorum.read →
        made.map Attempt.peer = r.peers) := by
  simp only [Coordination.get, hself]
  cases havailable : r.outage.available with
  | error e =>
    obtain ⟨hdown, -⟩ := Outage.available_eq_error_iff.mp havailable
    exact ⟨[], Made.nil, fun hup => absurd hdown (ne_true_of_eq_false hup)⟩
  | ok _ =>
    obtain ⟨made, hmade, hcount, hall⟩ := exists_walk i r .fetch (Cluster.serveFetch key)
      (fun got : ℕ × Siblings => r.quorum.read ≤ got.1)
      (fun got remote => (got.1 + 1, (got.2.merge remote).versions)) Prod.fst (fun _ _ => rfl)
      r.peers (1, r.store.versions key) s
    refine ⟨made, hmade, fun _ hfew => hall ?_⟩
    simp only [hcount, decide_eq_true_eq]
    omega

/-- A push calls all peers. -/
lemma exists_gossip (hself : (surroundings i r).self s = r) :
    let run := Coordination.gossip (surroundings i r) s
    ∃ made, Made r.timeout r.peers made s run.2 ∧ ∀ reached, run.1 = .ok reached →
      reached = made.countP Attempt.succeeded ∧ made.map Attempt.peer = r.peers := by
  simp only [Coordination.gossip, hself]
  cases havailable : r.outage.available with
  | error e => exact ⟨[], Made.nil, fun _ h => by cases h⟩
  | ok _ =>
    obtain ⟨made, hmade, hcount, hall⟩ := exists_walk i r .absorb (·.absorb r.store)
      (fun _ => false) (fun reached _ => reached + 1) id (fun _ _ => rfl) r.peers 0 s
    refine ⟨made, hmade, fun reached h => ?_⟩
    obtain rfl := Except.ok.inj h
    exact ⟨hcount.trans (Nat.zero_add _), hall Bool.false_ne_true⟩

/-- A request calls peers in order.  It goes on as long as it has not heard enough. -/
lemma exists_perform (hr : t.cluster.replicas[i]? = some r)
    (hmethod : request.method = .put ∨ request.method = .get ∨ request.method = .gossip)
    (conducts : List Conduct) :
    let run := Coordination.perform (surroundings i r) request ⟨t, conducts, []⟩
    ∃ made, Made r.timeout r.peers made ⟨t, conducts, []⟩ run.2 ∧
      (∀ receipt, run.1 = .ok (.put receipt) →
        receipt.acks = 1 + made.countP Attempt.succeeded ∧
          (receipt.met = false → made.map Attempt.peer = r.peers)) ∧
      (∀ key, request = .get key → r.outage.down = false →
        1 + made.countP Attempt.succeeded < r.quorum.read → made.map Attempt.peer = r.peers) ∧
      (∀ reached, run.1 = .ok (.gossip reached) →
        reached = made.countP Attempt.succeeded ∧ made.map Attempt.peer = r.peers) := by
  have hself : (surroundings i r).self ⟨t, conducts, []⟩ = r := by
    simp only [surroundings, hr, Option.getD_some]
  intro run
  cases request with
  | put key context value =>
    obtain ⟨made, hmade, hput⟩ := exists_put hself key context value
    refine ⟨made, hmade, fun receipt h => ?_, nofun, fun reached h => ?_⟩ <;>
      obtain ⟨told, hrun, houtcome⟩ := Except.exists_of_map_eq_ok h <;> cases houtcome
    exact hput receipt hrun
  | get key =>
    obtain ⟨made, hmade, hget⟩ := exists_get hself key
    refine ⟨made, hmade, fun receipt h => ?_, fun _ _ => hget, fun reached h => ?_⟩ <;>
      obtain ⟨told, -, houtcome⟩ := Except.exists_of_map_eq_ok h <;> cases houtcome
  | gossip =>
    obtain ⟨made, hmade, hgossip⟩ := exists_gossip hself
    refine ⟨made, hmade, fun receipt h => ?_, nofun, fun reached h => ?_⟩ <;>
      obtain ⟨told, hrun, houtcome⟩ := Except.exists_of_map_eq_ok h <;> cases houtcome
    exact hgossip reached hrun
  | _ => simp [Request.method] at hmethod

/-- **Trouble with peers costs bounded time.**  Let a replica serve a write, a read or a push of its
store, and let each peer deal with its call anyhow.
* This takes as much time as the calls take one after the other.  A call takes as long as it
  takes, or else as long as the replica waits, which bounds the time by the number of calls.
* Peers are called in order.  A call that would take longer than the replica waits fails, and the
  replica goes on with the next peer until enough calls have succeeded.
* Let nothing become due meanwhile: no timer of an outage, and no part of a periodic push.  Calls
  that are given up may then fail at once instead, or as soon as they have been served if they
  are.  The outcome is the same, and so are the stores of all replicas; only failures may be
  counted under other codes. -/
theorem perform_of_conducts (hr : t.cluster.replicas[i]? = some r)
    (hmethod : request.method = .put ∨ request.method = .get ∨ request.method = .gossip)
    (conducts : List Conduct) :
    let run := Coordination.perform (surroundings i r) request ⟨t, conducts, []⟩
    let attempts := run.2.attempts
    let elapsed := (attempts.map fun a => a.conduct.time r.timeout).sum
    run.2.time.now = t.now + elapsed ∧ elapsed ≤ attempts.length * r.timeout ∧
    attempts.map Attempt.peer <+: r.peers ∧
    conducts.take attempts.length <+: attempts.map Attempt.conduct ∧
    (∀ a ∈ attempts, a.conduct.late r.timeout = true →
      a.failure = some (.timeout a.peer.text)) ∧
    (∀ receipt, run.1 = .ok (.put receipt) →
      receipt.acks = 1 + attempts.countP Attempt.succeeded ∧
        (receipt.met = false → attempts.map Attempt.peer = r.peers)) ∧
    (∀ key, request = .get key → r.outage.down = false →
      1 + attempts.countP Attempt.succeeded < r.quorum.read →
        attempts.map Attempt.peer = r.peers) ∧
    (∀ reached, run.1 = .ok (.gossip reached) →
      reached = attempts.countP Attempt.succeeded ∧ attempts.map Attempt.peer = r.peers) ∧
    ((∀ p ∈ t.agenda, t.now + elapsed ≤ p.1) →
      ∀ conducts', List.Forall₂ (Conduct.FailsInstead r.timeout) conducts conducts' →
        let run' := Coordination.perform (surroundings i r) request ⟨t, conducts', []⟩
        run'.1 = run.1 ∧ run'.2.time.cluster.uncounted = run.2.time.cluster.uncounted) := by
  intro run attempts elapsed
  obtain ⟨made, hmade, hput, hget, hgossip⟩ := exists_perform hr hmethod conducts
  obtain rfl : attempts = made := hmade.attempts
  have hbound : elapsed ≤ attempts.length * r.timeout := by
    have hsum := List.sum_le_card_nsmul (attempts.map fun a => a.conduct.time r.timeout) r.timeout
      fun n hn => by
        obtain ⟨a, -, rfl⟩ := List.mem_map.mp hn
        exact a.conduct.time_le r.timeout
    simpa using hsum
  refine ⟨hmade.now, hbound, hmade.peers, hmade.conducts, hmade.late, hput, hget, hgossip,
    fun hquiet conducts' hconducts => ?_⟩
  intro run'
  have hquiet' : ∀ p ∈ t.agenda, run.2.time.now ≤ p.1 := fun p hp =>
    hmade.now.le.trans (hquiet p hp)
  have hkeeps : ∀ c : Cluster, Keeps r.timeout run.2.time.now
      ⟨{ t with cluster := c }, conducts, []⟩ ⟨{ t with cluster := c }, conducts', []⟩ :=
    fun c => ⟨rfl, rfl, hquiet', hquiet', le_rfl, hconducts⟩
  have hself : (surroundings i r).self ⟨t, conducts, []⟩ =
      (surroundings i r).self ⟨t, conducts', []⟩ := rfl
  have halike : run.1 = run'.1 ∧ Keeps r.timeout run.2.time.now run.2 run'.2 :=
    Coordination.perform_alike
      (fun key versions => alike_of_keeps i r .replicate (overlooking_replicate key versions))
      (fun key => alike_of_keeps i r .fetch (overlooking_fetch key))
      (fun pushed => alike_of_keeps i r .absorb (overlooking_absorb pushed))
      hself (fun q => hkeeps _) (hkeeps _) hmethod (le_refl run.2.time.now)
  exact ⟨halike.1.symm, halike.2.cluster.symm⟩

/-- A write that two replicas are to confirm.  The first peer would serve it too late, the second
one serves it at once and answers too late, and the third one answers at the last moment.  If the
call of the first peer fails at once, the write takes 500 milliseconds less and leaves the same. -/
theorem perform_of_conducts_late :
    let t := Timeline.start (Cluster.ofRing [("n1", ⟨"h", 1⟩), ("n2", ⟨"h", 2⟩), ("n3", ⟨"h", 3⟩),
      ("n4", ⟨"h", 4⟩)] ⟨2, 2⟩ 500 true)
    let request : Request := .put "k" (.ofPairs []) [1]
    let conducts : List Conduct :=
      [.served 501 (.answer 0), .served 0 (.answer 600), .served 100 (.answer 400)]
    let conducts' : List Conduct :=
      [.failed 0 .closed, .served 0 (.answer 600), .served 100 (.answer 400)]
    ∃ r, t.cluster.replicas[0]? = some r ∧ request.method = .put ∧
      let run := Coordination.perform (surroundings 0 r) request ⟨t, conducts, []⟩
      let run' := Coordination.perform (surroundings 0 r) request ⟨t, conducts', []⟩
      run.2.time.now = 1500 ∧ run.2.attempts.map Attempt.peer = r.peers ∧
        run.1 = .ok (.put ⟨2, 2⟩) ∧ run'.1 = run.1 ∧ run'.2.time.now = 1000 ∧
        run'.2.time.cluster.uncounted = run.2.time.cluster.uncounted := by
  intro t request conducts conducts'
  obtain ⟨r, hr⟩ : ∃ r, t.cluster.replicas[0]? = some r := ⟨_, rfl⟩
  have hmethod : request.method = .put ∨ request.method = .get ∨ request.method = .gossip :=
    .inl rfl
  obtain ⟨hnow, -, -, -, -, -, -, -, hsooner⟩ := perform_of_conducts hr hmethod conducts
  have hnow' := (perform_of_conducts hr hmethod conducts').1
  refine ⟨r, hr, rfl, ?_⟩
  intro run run'
  cases hr
  obtain ⟨hsame, hcluster⟩ := hsooner nofun conducts'
    (.cons (.inr ⟨rfl, _, rfl⟩) (.cons (.inl rfl) (.cons (.inl rfl) .nil)))
  exact ⟨hnow.trans (by decide +kernel), by decide +kernel, rfl, hsame,
    hnow'.trans (by decide +kernel), hcluster⟩

end Requests

end Conducted

end QuorumStore
