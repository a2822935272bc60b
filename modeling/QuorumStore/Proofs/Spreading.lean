/-
How versions spread in a cluster that is given nothing from outside.  They are in the
stores of replicas, with operations, and in messages; a move passes them on from one
of these places to another.

* `Traffic.Passes`: from where to where a move passes versions on;
* `Traffic.covers_after_iff`: after a move a place covers what it covered and what is
  passed on to it;
* `Traffic.covers_run_iff`: after some moves a place covers what those places covered
  in the beginning from which a chain of such steps leads to it.
-/
import QuorumStore.Proofs.Operations

namespace QuorumStore

/-! ### What is where -/

/-- What a replica holds of a key; nothing if there is no such replica. -/
def Cluster.versions (c : Cluster) (i : ℕ) (key : String) : Siblings :=
  (c.replicas[i]?.map fun r => r.store.versions key).getD []

/-- What an operation sends to peers of a key. -/
def Errand.versions (key : String) : Errand → Siblings
  | .put write merged _ => if write.key = key then merged else []
  | .get _ _ _ => []
  | .gossip snapshot _ => snapshot.versions key

namespace Letter

/-- Where a message goes. -/
def peer : Letter → Endpoint
  | replicate peer _ _ => peer
  | absorb peer _ => peer

/-- What a message brings of a key. -/
def versions (key : String) : Letter → Siblings
  | replicate _ k versions => if k = key then versions else []
  | absorb _ pushed => pushed.versions key

/-- A replica takes a message: it answers at the endpoint and is in service. -/
def TakenBy (l : Letter) (c : Cluster) (j : ℕ) : Prop :=
  c.whoAnswers? l.peer = some j ∧ ∃ q, c.replicas[j]? = some q ∧ q.outage.down = false

end Letter

/-- A call is served, whether or not its caller hears so. -/
def Fate.Served : Fate → Prop
  | .lost _ => False
  | _ => True

/-- An operation that has not ended sends a message with its next call. -/
def Operation.Sends (o : Operation) (l : Letter) : Prop :=
  o.errand.enough o.quorum = false ∧
    ∃ peer rest, o.rest = peer :: rest ∧ o.errand.letter? peer = some l

lemma Operation.Sends.unique {o : Operation} {l l' : Letter} (h : o.Sends l) (h' : o.Sends l') :
    l = l' := by
  obtain ⟨-, peer, rest, hrest, hl⟩ := h
  obtain ⟨-, peer', rest', hrest', hl'⟩ := h'
  cases hrest.symm.trans hrest'
  exact Option.some.inj (hl.symm.trans hl')

/-- A place where versions are: the store of a replica, an operation, or a message. -/
inductive Place where
  | store (node : ℕ)
  | errand (operation : ℕ)
  | letter (letter : ℕ)

/-- What is at a place of a key. -/
def Traffic.versions (s : Traffic) (key : String) : Place → Siblings
  | .store i => s.cluster.versions i key
  | .errand k => (s.operations[k]?.map fun o => o.errand.versions key).getD []
  | .letter n => (s.letters[n]?.map fun l => l.versions key).getD []

/-- A move by which no replica is given anything from outside. -/
def Move.Quiet : Move → Prop
  | .request _ (.put _ _ _) => False
  | .request _ (.replicate _ _) => False
  | .request _ (.absorb _) => False
  | _ => True

/-- From where to where a move passes versions on. -/
inductive Traffic.Passes (s : Traffic) : Move → Place → Place → Prop where
  /-- A push begins with what its replica holds then. -/
  | begun {i : ℕ} {r : Replica} (hr : s.cluster.replicas[i]? = some r)
      (hup : r.outage.down = false) :
      Passes s (.request i .gossip) (.store i) (.errand s.operations.length)
  /-- A call sends a message, whatever becomes of it. -/
  | sent {k : ℕ} {fate : Fate} {o : Operation} {l : Letter} (ho : s.operations[k]? = some o)
      (hl : o.Sends l) : Passes s (.call k fate) (.errand k) (.letter s.letters.length)
  /-- A call that is served gives it to the replica that takes it. -/
  | served {k j : ℕ} {fate : Fate} {o : Operation} {l : Letter} (ho : s.operations[k]? = some o)
      (hl : o.Sends l) (hfate : fate.Served) (hj : l.TakenBy s.cluster j) :
      Passes s (.call k fate) (.errand k) (.store j)
  /-- So does a message that arrives later. -/
  | arrived {n j : ℕ} {l : Letter} (hl : s.letters[n]? = some l) (hj : l.TakenBy s.cluster j) :
      Passes s (.arrival n) (.letter n) (.store j)

/-! ### Replicas -/

namespace Replica

variable {r : Replica} {key k : String} {incoming : Siblings} {pushed : Store} {d : Clock}

lemma knows_replicate_iff :
    (r.replicate k incoming).2.store.Knows key d ↔
      r.store.Knows key d ∨
        r.outage.down = false ∧ Siblings.Covers (if k = key then incoming else []) d := by
  rw [replicate_eq]
  by_cases hdown : r.outage.down = true
  · simp [hdown]
  · rw [if_neg hdown]
    simp only [Store.knows_absorb, Bool.eq_false_iff.mpr hdown, true_and]
    by_cases hk : k = key
    · simp [hk]
    · simp [hk]

lemma knows_absorb_iff :
    (r.absorb pushed).2.store.Knows key d ↔
      r.store.Knows key d ∨ r.outage.down = false ∧ pushed.Knows key d := by
  have hentries : (∃ p ∈ pushed.entries, p.1 = key ∧ p.2.Covers d) ↔ pushed.Knows key d := by
    constructor
    · rintro ⟨⟨k, versions⟩, hp, rfl, hcovers⟩
      rwa [Store.Knows, Store.versions_of_get? ((KeyMap.mem_entries_iff pushed).mp hp)]
    · intro hknows
      obtain ⟨versions, hget⟩ := Store.knows_of_get?_isSome hknows
      rw [Store.Knows, Store.versions_of_get? hget] at hknows
      exact ⟨(key, versions), (KeyMap.mem_entries_iff pushed).mpr hget, rfl, hknows⟩
  rw [absorb_eq]
  by_cases hdown : r.outage.down = true
  · simp [hdown]
  · rw [if_neg hdown]
    simp only [Store.knows_absorbEach_iff, hentries, Bool.eq_false_iff.mpr hdown, true_and]

end Replica

/-! ### Clusters -/

namespace Cluster

variable {c c' : Cluster} {i j : ℕ} {key : String} {d : Clock}

lemma versions_of_getElem? {r : Replica} (h : c.replicas[i]? = some r) :
    c.versions i key = r.store.versions key := by simp [versions, h]

/-- Where no replica is given anything, all hold what they held. -/
lemma Evolves.versions_eq (h : c.Evolves (fun _ _ => False) True c') :
    c'.versions j key = c.versions j key := by
  have hj := h.replicas j
  rw [versions, versions]
  revert hj
  generalize c.replicas[j]? = x, c'.replicas[j]? = y
  rintro (⟨-, -, -, -, pairs, hnone, hstore⟩ | -)
  · obtain rfl : pairs = [] := List.eq_nil_iff_forall_not_mem.mpr hnone
    rw [Store.snd_absorbEach_nil] at hstore
    simp [hstore]
  · rfl

/-- A delivery brings something to the replica at the endpoint only, if that is in
service. -/
lemma covers_deliver_iff {α : Type} {e : Endpoint} {serve : Replica → Except Refusal α × Replica}
    {brought : Siblings}
    (hserve : ∀ r : Replica, (serve r).2.store.Knows key d ↔
      r.store.Knows key d ∨ r.outage.down = false ∧ brought.Covers d) :
    ((c.deliver e serve).2.versions j key).Covers d ↔
      (c.versions j key).Covers d ∨ (c.whoAnswers? e = some j ∧
        ∃ q, c.replicas[j]? = some q ∧ q.outage.down = false) ∧ brought.Covers d := by
  by_cases hj : c.whoAnswers? e = some j
  · cases hq : c.replicas[j]? with
    | none => simp [deliver, hj, hq]
    | some q =>
      have hlt := (List.getElem?_eq_some_iff.mp hq).1
      have hafter : (c.deliver e serve).2.replicas[j]? = some (serve q).2 := by
        simp [deliver, hj, hq, set, List.getElem?_set_self hlt]
      rw [versions_of_getElem? hafter, versions_of_getElem? hq]
      change (serve q).2.store.Knows key d ↔ q.store.Knows key d ∨ _
      simpa [hj] using hserve q
  · rw [versions, getElem?_deliver c e serve hj]
    simp [hj, versions]

end Cluster

namespace Letter

variable {l : Letter} {c : Cluster} {j : ℕ} {key : String} {d : Clock}

/-- A message that arrives gives what it brings to the replica that takes it. -/
lemma covers_arrive_iff :
    ((l.arrive c).versions j key).Covers d ↔
      (c.versions j key).Covers d ∨ l.TakenBy c j ∧ (l.versions key).Covers d := by
  cases l with
  | replicate peer k incoming =>
    exact Cluster.covers_deliver_iff fun r => Replica.knows_replicate_iff
  | absorb peer pushed => exact Cluster.covers_deliver_iff fun r => Replica.knows_absorb_iff

end Letter

/-! ### Calls -/

namespace Fated

variable {α : Type} {i j : ℕ} {r : Replica} {method : Method} {peer : Endpoint} {c : Cluster}
variable {key : String} {serve : Replica → Except Refusal α × Replica}

/-- After a call that was served the replicas hold what they hold after the delivery. -/
lemma versions_counted_exchange {fate : Fate} (hfate : fate.Served) :
    (Coordination.counted (surroundings i r) method (fun p => exchange p serve) peer
      ⟨c, [fate]⟩).2.cluster.versions j key = (c.deliver peer serve).2.versions j key := by
  have hcount : ∀ (c : Cluster) (e : CallError),
      (c.modify i fun q => q.countFailure method e).versions j key = c.versions j key :=
    fun c e => Cluster.Evolves.versions_eq <|
      Cluster.evolves_modify fun _ _ => Replica.evolves_countFailure
  simp only [Coordination.counted, exchange, List.headD_cons]
  cases fate with
  | heard =>
    dsimp only
    cases (c.deliver peer serve).1 with
    | ok a => rfl
    | error e => exact hcount _ e
  | lost e => exact absurd hfate id
  | unheard e => exact hcount _ e

/-- After a call that was lost the replicas hold what they held. -/
lemma versions_counted_exchange_of_lost {fate : Fate} (hfate : ¬ fate.Served) :
    (Coordination.counted (surroundings i r) method (fun p => exchange p serve) peer
      ⟨c, [fate]⟩).2.cluster.versions j key = c.versions j key := by
  cases fate with
  | lost e =>
    exact Cluster.Evolves.versions_eq <|
      Cluster.evolves_modify fun _ _ => Replica.evolves_countFailure
  | heard => exact absurd trivial hfate
  | unheard e => exact absurd trivial hfate

end Fated

namespace Errand

variable {x : Errand} {l : Letter} {peer : Endpoint} {c : Cluster} {fate : Fate}
variable {i j : ℕ} {r : Replica} {key : String} {d : Clock}

/-- A message brings what its operation sends. -/
lemma versions_of_letter? (h : x.letter? peer = some l) : l.versions key = x.versions key := by
  cases x with
  | put write merged acks =>
    cases h
    rfl
  | get k reads versions => cases h
  | gossip snapshot reached =>
    cases h
    rfl

/-- A call with which a message is sent gives what this brings to the replica that takes
it, unless the call is lost. -/
lemma covers_ask_iff (h : x.letter? peer = some l) :
    ((x.ask (Fated.surroundings i r) peer ⟨c, [fate]⟩).2.cluster.versions j key).Covers d ↔
      (c.versions j key).Covers d ∨
        fate.Served ∧ l.TakenBy c j ∧ (l.versions key).Covers d := by
  have hlost : ∀ {c' : Cluster}, (¬ fate.Served → c'.versions j key = c.versions j key) →
      (fate.Served → c'.versions j key = (l.arrive c).versions j key) →
      ((c'.versions j key).Covers d ↔ (c.versions j key).Covers d ∨
        fate.Served ∧ l.TakenBy c j ∧ (l.versions key).Covers d) := by
    intro c' hlost hserved
    by_cases hfate : fate.Served
    · rw [hserved hfate, Letter.covers_arrive_iff]
      simp [hfate]
    · rw [hlost hfate]
      simp [hfate]
  cases x with
  | put write merged acks =>
    cases h
    exact hlost Fated.versions_counted_exchange_of_lost Fated.versions_counted_exchange
  | get k reads versions => cases h
  | gossip snapshot reached =>
    cases h
    exact hlost Fated.versions_counted_exchange_of_lost Fated.versions_counted_exchange

/-- A call without a message leaves the replicas what they hold. -/
lemma versions_ask_of_letter?_eq_none (h : x.letter? peer = none) :
    (x.ask (Fated.surroundings i r) peer ⟨c, [fate]⟩).2.cluster.versions j key
      = c.versions j key := by
  cases x with
  | put write merged acks => cases h
  | get k reads versions =>
    exact Cluster.Evolves.versions_eq <|
      Fated.evolves_counted_exchange (Cluster.serveFetch k) ⟨c, [fate]⟩ fun q => .refl q
  | gossip snapshot reached => cases h

/-- A call leaves an operation what it sends. -/
lemma versions_of_ask_eq_ok {x' : Errand} {f : Fated}
    (h : x.ask (Fated.surroundings i r) peer ⟨c, [fate]⟩ = (.ok x', f)) :
    x'.versions key = x.versions key := by
  cases x with
  | put write merged acks =>
    obtain ⟨-, rfl, -⟩ := ask_put_eq_ok h
    rfl
  | get k reads versions =>
    obtain ⟨-, -, -, -, -, -, -, rfl⟩ := ask_get_eq_ok h
    rfl
  | gossip snapshot reached =>
    cases ask_gossip_eq_ok h
    rfl

end Errand

/-- A replica that begins no push is out of service. -/
lemma Replica.down_of_begin_gossip_eq_none {i : ℕ} {r : Replica} (h : r.begin i .gossip = none) :
    r.outage.down = true := by
  by_contra hup
  simp [Replica.begin, Outage.available, hup] at h

/-! ### Moves -/

namespace Traffic

variable {s : Traffic} {m : Move} {key : String} {d : Clock} {p q : Place} {k n : ℕ}

/-- A move by which nothing is passed on leaves a place what it has. -/
lemma covers_iff_of_not_passes {t : Traffic} (hsame : t.versions key q = s.versions key q)
    (hnone : ∀ p, ¬ s.Passes m p q) :
    (t.versions key q).Covers d ↔
      (s.versions key q).Covers d ∨ ∃ p, s.Passes m p q ∧ (s.versions key p).Covers d := by
  rw [hsame, or_iff_left fun ⟨p, hp, _⟩ => hnone p hp]

/-- A place that was empty has what is at the only place from which a move passes on to it. -/
lemma covers_iff_of_passes {t : Traffic} (source : Place) (hempty : s.versions key q = [])
    (hsame : t.versions key q = s.versions key source)
    (hpasses : ∀ p, s.Passes m p q ↔ p = source) :
    (t.versions key q).Covers d ↔
      (s.versions key q).Covers d ∨ ∃ p, s.Passes m p q ∧ (s.versions key p).Covers d := by
  rw [hsame, hempty, or_iff_right Siblings.not_covers_nil]
  simp [hpasses]

/-- A request that begins no operation leaves the replicas what they hold, if it gives
none of them anything. -/
lemma versions_act_request {i : ℕ} {request : Request} (hquiet : (Move.request i request).Quiet)
    (hbegin : ∀ r, s.cluster.replicas[i]? = some r → r.begin i request = none) (j : ℕ) :
    (s.cluster.act (.request i request [])).2.versions j key = s.cluster.versions j key := by
  refine Cluster.Evolves.versions_eq <|
    Cluster.evolves_act_request hbegin ?_ ?_ fun _ _ => trivial
  · rintro k versions rfl
    exact hquiet
  · rintro pushed k versions rfl -
    exact hquiet

/-- A push that a replica begins has what the replica holds, and a read has nothing. -/
lemma covers_begun_iff {i : ℕ} {request : Request} {r : Replica} {o : Operation}
    (hr : s.cluster.replicas[i]? = some r) (hup : r.outage.down = false)
    (hkind : (∃ k, request = .get k ∧ o.errand.versions key = []) ∨
      request = .gossip ∧ o.errand.versions key = r.store.versions key) :
    (versions ⟨s.cluster, s.operations ++ [o], s.letters⟩ key q).Covers d ↔
      (s.versions key q).Covers d ∨
        ∃ p, s.Passes (.request i request) p q ∧ (s.versions key p).Covers d := by
  cases q with
  | store j => exact covers_iff_of_not_passes rfl fun p hp => by cases hp
  | letter n => exact covers_iff_of_not_passes rfl fun p hp => by cases hp
  | errand k =>
    by_cases hk : k = s.operations.length
    · subst hk
      have hbefore : s.versions key (.errand s.operations.length) = [] := by simp [versions]
      have hafter : versions ⟨s.cluster, s.operations ++ [o], s.letters⟩ key
          (.errand s.operations.length) = o.errand.versions key := by simp [versions]
      rcases hkind with ⟨k, rfl, hnothing⟩ | ⟨rfl, hheld⟩
      · exact covers_iff_of_not_passes (by rw [hafter, hnothing, hbefore])
          fun p hp => by cases hp
      · refine covers_iff_of_passes (.store i) hbefore ?_ fun p => ⟨fun hp => ?_, ?_⟩
        · rw [hafter, hheld]
          exact (Cluster.versions_of_getElem? hr).symm
        · cases hp
          rfl
        · rintro rfl
          exact .begun hr hup
    · refine covers_iff_of_not_passes (by simp [versions, getElem?_concat, hk]) fun p hp => ?_
      cases hp
      exact hk rfl

/-- After a request, a push that it has begun has what its replica held. -/
lemma covers_ask_iff {i : ℕ} {request : Request} (hquiet : (Move.request i request).Quiet) :
    ((s.ask i request).versions key q).Covers d ↔ (s.versions key q).Covers d ∨
      ∃ p, s.Passes (.request i request) p q ∧ (s.versions key p).Covers d := by
  rcases s.ask_cases i request with ⟨r, r', o, hr, hbegin, hask⟩ | ⟨hbegin, hask⟩
  · have hup : r.outage.down = false := by
      simpa [Outage.available] using Replica.available_of_begin hbegin
    rcases Replica.begin_eq_some hbegin with
      ⟨k, context, value, merged, rfl, -, -⟩ | ⟨rfl, ⟨k, rfl, rfl⟩ | ⟨rfl, rfl⟩⟩
    · exact absurd hquiet id
    · rw [hask, Cluster.modify_of_getElem? hr]
      exact covers_begun_iff hr hup (.inl ⟨k, rfl, rfl⟩)
    · rw [hask, Cluster.modify_of_getElem? hr]
      exact covers_begun_iff hr hup (.inr ⟨rfl, rfl⟩)
  · refine covers_iff_of_not_passes ?_ fun p hp => ?_
    · rw [hask]
      cases q with
      | store j => exact versions_act_request hquiet hbegin j
      | errand k => rfl
      | letter n => rfl
    · cases hp with
      | begun hr hup =>
        rw [Replica.down_of_begin_gossip_eq_none (hbegin _ hr)] at hup
        cases hup

/-- An operation has to send after a call what it had. -/
lemma versions_note {o : Operation} {i : ℕ} {r : Replica} {peer : Endpoint}
    {rest : List Endpoint} {c : Cluster} {fate : Fate} {answer : Except CallError Errand}
    {f : Fated}
    (h : o.errand.ask (Fated.surroundings i r) peer ⟨c, [fate]⟩ = (answer, f)) :
    (o.note peer rest fate answer).errand.versions key = o.errand.versions key := by
  cases answer with
  | ok x => exact Errand.versions_of_ask_eq_ok h
  | error e => rfl

/-- Where an operation is put that has the same to send, all operations have what they had. -/
lemma versions_errand_set {o o' : Operation} {c : Cluster} {letters : List Letter} {k' : ℕ}
    (ho : s.operations[k]? = some o) (h : o'.errand.versions key = o.errand.versions key) :
    versions ⟨c, s.operations.set k o', letters⟩ key (.errand k')
      = s.versions key (.errand k') := by
  by_cases hk : k = k'
  · subst hk
    have hlt := (List.getElem?_eq_some_iff.mp ho).1
    simp [versions, List.getElem?_set_self hlt, ho, h]
  · simp [versions, List.getElem?_set_ne hk]

/-- What a call with which a message is sent leaves behind. -/
lemma call_of_sends {o : Operation} {l : Letter} (ho : s.operations[k]? = some o)
    (hl : o.Sends l) (fate : Fate) :
    ∃ c o', s.call k fate = ⟨c, s.operations.set k o', s.letters ++ [l]⟩ ∧ ∀ key,
      l.versions key = o.errand.versions key ∧ o'.errand.versions key = o.errand.versions key ∧
      ∀ j d, (c.versions j key).Covers d ↔ (s.cluster.versions j key).Covers d ∨
        fate.Served ∧ l.TakenBy s.cluster j ∧ (l.versions key).Covers d := by
  obtain ⟨henough, peer, rest, hrest, hletter⟩ := hl
  have hcall := call_eq ho henough hrest fate
  rw [hletter, Option.toList_some] at hcall
  exact ⟨_, _, hcall, fun key => ⟨Errand.versions_of_letter? hletter, versions_note rfl,
    fun j d => Errand.covers_ask_iff hletter⟩⟩

/-- A call without a message leaves every place what it has. -/
lemma versions_call_of_not_sends (h : ∀ o l, s.operations[k]? = some o → ¬ o.Sends l)
    (fate : Fate) : (s.call k fate).versions key q = s.versions key q := by
  rcases s.call_cases k fate with
    hcall | ⟨o, peer, rest, answer, f, ho, henough, hrest, hask, hcall⟩
  · rw [hcall]
  · have hnone : o.errand.letter? peer = none := by
      cases hletter : o.errand.letter? peer with
      | none => rfl
      | some l => exact absurd ⟨henough, peer, rest, hrest, hletter⟩ (h o l ho)
    rw [hcall, hnone, Option.toList_none, List.append_nil]
    cases q with
    | store j =>
      have hcluster : (o.errand.ask (Fated.surroundings o.node default) peer
          ⟨s.cluster, [fate]⟩).2.cluster.versions j key = s.cluster.versions j key :=
        Errand.versions_ask_of_letter?_eq_none hnone
      rwa [hask] at hcluster
    | letter n => rfl
    | errand k' => exact versions_errand_set ho (versions_note hask)

/-- After a call, the message that it sent has what its operation sends, and so has the
replica that has taken it. -/
lemma covers_call_iff {fate : Fate} :
    ((s.call k fate).versions key q).Covers d ↔ (s.versions key q).Covers d ∨
      ∃ p, s.Passes (.call k fate) p q ∧ (s.versions key p).Covers d := by
  -- a read, and an operation that has ended, send nothing
  by_cases hsends : ∃ o l, s.operations[k]? = some o ∧ o.Sends l
  · obtain ⟨o, l, ho, hl⟩ := hsends
    obtain ⟨c, o', hcall, hplaces⟩ := call_of_sends ho hl fate
    obtain ⟨hletter, hnote, hcluster⟩ := hplaces key
    have hsent : s.versions key (.errand k) = l.versions key := by simp [versions, ho, hletter]
    rw [hcall]
    cases q with
    | store j =>
      refine (hcluster j d).trans (or_congr_right ⟨?_, ?_⟩)
      · rintro ⟨hfate, hj, hcovers⟩
        exact ⟨.errand k, .served ho hl hfate hj, hsent ▸ hcovers⟩
      · rintro ⟨p, hp, hcovers⟩
        cases hp with
        | served ho' hl' hfate hj =>
          cases ho.symm.trans ho'
          obtain rfl := hl.unique hl'
          exact ⟨hfate, hj, hsent ▸ hcovers⟩
    | errand k' =>
      exact covers_iff_of_not_passes (versions_errand_set ho hnote) fun p hp => by cases hp
    | letter n =>
      by_cases hn : n = s.letters.length
      · subst hn
        refine covers_iff_of_passes (.errand k) (by simp [versions]) ?_
          fun p => ⟨fun hp => ?_, ?_⟩
        · rw [hsent]
          simp [versions]
        · cases hp
          rfl
        · rintro rfl
          exact .sent ho hl
      · refine covers_iff_of_not_passes ?_ fun p hp => ?_
        · simp [versions, getElem?_concat, hn]
        · cases hp
          exact hn rfl
  · have hnone : ∀ o l, s.operations[k]? = some o → ¬ o.Sends l :=
      fun o l ho hl => hsends ⟨o, l, ho, hl⟩
    refine covers_iff_of_not_passes (versions_call_of_not_sends hnone fate) fun p hp => ?_
    cases hp with
    | sent ho hl => exact hnone _ _ ho hl
    | served ho hl _ _ => exact hnone _ _ ho hl

/-- After a message has arrived, the replica that has taken it has what it brings. -/
lemma covers_arrive_iff :
    ((s.arrive n).versions key q).Covers d ↔ (s.versions key q).Covers d ∨
      ∃ p, s.Passes (.arrival n) p q ∧ (s.versions key p).Covers d := by
  rw [arrive]
  cases hl : s.letters[n]? with
  | none =>
    refine covers_iff_of_not_passes rfl fun p hp => ?_
    cases hp with
    | arrived hl' _ => cases hl.symm.trans hl'
  | some l =>
    have hbrought : s.versions key (.letter n) = l.versions key := by simp [versions, hl]
    cases q with
    | store j =>
      refine l.covers_arrive_iff.trans (or_congr_right ⟨?_, ?_⟩)
      · rintro ⟨hj, hcovers⟩
        exact ⟨.letter n, .arrived hl hj, hbrought ▸ hcovers⟩
      · rintro ⟨p, hp, hcovers⟩
        cases hp with
        | arrived hl' hj =>
          cases hl.symm.trans hl'
          exact ⟨hj, hbrought ▸ hcovers⟩
    | errand k => exact covers_iff_of_not_passes rfl fun p hp => by cases hp
    | letter n' => exact covers_iff_of_not_passes rfl fun p hp => by cases hp

/-- **One move.**  After a move that gives the replicas nothing from outside, a place
covers what it covered and what the places covered from which the move passes versions
on to it. -/
theorem covers_after_iff (hquiet : m.Quiet) :
    ((s.after m).versions key q).Covers d ↔ (s.versions key q).Covers d ∨
      ∃ p, s.Passes m p q ∧ (s.versions key p).Covers d := by
  -- what changes neither stores nor operations nor messages passes nothing on
  have hstores : ∀ {c : Cluster}, s.cluster.Evolves (fun _ _ => False) True c →
      Traffic.versions { s with cluster := c } key q = s.versions key q := fun h => by
    cases q with
    | store j => exact h.versions_eq
    | errand k => rfl
    | letter n => rfl
  cases m with
  | request i request => exact covers_ask_iff hquiet
  | call k fate => exact covers_call_iff
  | arrival n => exact covers_arrive_iff
  | recovery i =>
    refine covers_iff_of_not_passes (hstores ?_) fun p hp => by cases hp
    exact Cluster.evolves_modify fun q _ => .of_eq rfl rfl rfl (fun _ => rfl) rfl
  | detachment i =>
    exact covers_iff_of_not_passes (hstores (Cluster.evolves_act_detachment s.cluster i))
      fun p hp => by cases hp
  | attachment i =>
    exact covers_iff_of_not_passes (hstores (Cluster.evolves_attach s.cluster i))
      fun p hp => by cases hp

/-! ### Chains -/

/-- A chain of steps, each of them at its time, leads from one place to another. -/
inductive Flows : Traffic → List Move → Place → Place → Prop where
  | done {s : Traffic} {p : Place} : Flows s [] p p
  | stay {s : Traffic} {m : Move} {rest : List Move} {p q : Place}
      (h : Flows (s.after m) rest p q) : Flows s (m :: rest) p q
  | pass {s : Traffic} {m : Move} {rest : List Move} {p p' q : Place}
      (hm : s.Passes m p p') (h : Flows (s.after m) rest p' q) : Flows s (m :: rest) p q

lemma flows_nil_iff : s.Flows [] p q ↔ p = q :=
  ⟨fun h => by cases h; rfl, fun h => h ▸ .done⟩

lemma flows_cons_iff {rest : List Move} :
    s.Flows (m :: rest) p q ↔
      ∃ p', (p = p' ∨ s.Passes m p p') ∧ (s.after m).Flows rest p' q := by
  constructor
  · intro h
    cases h with
    | stay h => exact ⟨p, .inl rfl, h⟩
    | pass hm h => exact ⟨_, .inr hm, h⟩
  · rintro ⟨p', rfl | hm, h⟩
    · exact .stay h
    · exact .pass hm h

/-- **Spreading.**  After moves that give the replicas nothing from outside, a place
covers what those places covered in the beginning from which a chain leads to it. -/
theorem covers_run_iff {moves : List Move} (hquiet : ∀ m ∈ moves, m.Quiet) :
    ((s.run moves).versions key q).Covers d ↔
      ∃ p, s.Flows moves p q ∧ (s.versions key p).Covers d := by
  induction moves generalizing s with
  | nil =>
    simp only [flows_nil_iff, exists_eq_left]
    rfl
  | cons m rest ih =>
    rw [List.forall_mem_cons] at hquiet
    change (((s.after m).run rest).versions key q).Covers d ↔ _
    rw [ih hquiet.2]
    simp only [covers_after_iff hquiet.1, flows_cons_iff]
    constructor
    · rintro ⟨p', hflows, hcovers | ⟨p, hpasses, hcovers⟩⟩
      · exact ⟨p', ⟨p', .inl rfl, hflows⟩, hcovers⟩
      · exact ⟨p, ⟨p', .inr hpasses, hflows⟩, hcovers⟩
    · rintro ⟨p, ⟨p', rfl | hpasses, hflows⟩, hcovers⟩
      · exact ⟨p, hflows, .inl hcovers⟩
      · exact ⟨p', hflows, .inr ⟨p, hpasses, hcovers⟩⟩

end Traffic

end QuorumStore
