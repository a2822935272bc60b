/-
What a single replica is given while operations overlap.  A move gives something to the
replica that it asks or whose peer's message it brings, and to no other.

* `Cluster.getElem?_deliver_eq`, `Fated.getElem?_counted_exchange`: what a delivery and a
  call leave of every replica;
* `Cluster.act_eq_of_begin_eq_none`: a request that begins no operation concerns the asked
  replica alone;
* `Traffic.Gives`: the versions of a key that a move gives to a replica;
* `Traffic.followsAt_after`: a move makes a replica absorb what it gives it, and puts it out
  of service only if it is asked to crash;
* `Traffic.Reaches.exists_of_spares`, `Traffic.Reaches.versions_of_givesUpTo`: so a replica
  holds the same versions of a key as long as it is given none, or nothing new.
-/
import QuorumStore.Proofs.Knowledge
import QuorumStore.Proofs.Spreading

namespace QuorumStore

/-! ### Deliveries -/

/-- Why a call failed, if it did. -/
def Coordination.failure? {α : Type} : Except CallError α → Option CallError
  | .ok _ => none
  | .error e => some e

/-- A replica after one of its calls, which it counts if it has failed. -/
def Replica.afterCall (method : Method) (failure : Option CallError) (r : Replica) : Replica :=
  failure.elim r (r.countFailure method)

instance : DecidablePred Fate.Served := fun fate =>
  match fate with
  | .heard => isTrue trivial
  | .lost _ => isFalse id
  | .unheard _ => isTrue trivial

/-- A delivery changes the replica that answers as it serves the call, and no other. -/
lemma Cluster.getElem?_deliver_eq {α : Type} (c : Cluster) (e : Endpoint)
    (serve : Replica → Except Refusal α × Replica) (j : ℕ) :
    (c.deliver e serve).2.replicas[j]? =
      if c.whoAnswers? e = some j then c.replicas[j]?.map fun q => (serve q).2
      else c.replicas[j]? := by
  split
  · rename_i hj
    cases hq : c.replicas[j]? with
    | none => simp [deliver, hj, hq]
    | some q =>
      have hlt := (List.getElem?_eq_some_iff.mp hq).1
      simp [deliver, hj, hq, set, List.getElem?_set_self hlt]
  · rename_i hj
    exact c.getElem?_deliver e serve hj

namespace Fated

variable {α : Type} (i : ℕ) (r : Replica) (method : Method) (peer : Endpoint) (c : Cluster)
variable (serve : Replica → Except Refusal α × Replica) (fate : Fate)

lemma self_surroundings {i : ℕ} {r : Replica} {c : Cluster} {fates : List Fate}
    (hr : c.replicas[i]? = some r) : (surroundings i r).self ⟨c, fates⟩ = r := by
  simp [surroundings, hr]

/-- What a call leaves of the cluster: it is delivered unless it is lost, and the caller
counts a failure. -/
lemma cluster_counted_exchange :
    let call := Coordination.counted (surroundings i r) method (fun p => exchange p serve) peer
      ⟨c, [fate]⟩
    call.2.cluster =
      (if fate.Served then (c.deliver peer serve).2 else c).modify i
        (Replica.afterCall method (Coordination.failure? call.1)) := by
  have hsame : ∀ c : Cluster, c.modify i id = c := fun c => by
    rw [Cluster.modify, List.modify_id]
  simp only [Coordination.counted, exchange, List.headD_cons]
  cases fate with
  | heard =>
    simp only [Fate.Served]
    cases (c.deliver peer serve).1 with
    | ok a => exact (hsame _).symm
    | error e => rfl
  | lost e => rfl
  | unheard e => rfl

/-- What a call leaves of every replica. -/
lemma getElem?_counted_exchange (j : ℕ) :
    let call := Coordination.counted (surroundings i r) method (fun p => exchange p serve) peer
      ⟨c, [fate]⟩
    call.2.cluster.replicas[j]? =
      (if fate.Served ∧ c.whoAnswers? peer = some j then c.replicas[j]?.map fun q => (serve q).2
        else c.replicas[j]?).map
          fun q => if i = j then q.afterCall method (Coordination.failure? call.1) else q := by
  intro call
  have hcluster : call.2.cluster = _ := cluster_counted_exchange i r method peer c serve fate
  rw [hcluster, Cluster.modify, List.getElem?_modify]
  have hcarried : (if fate.Served then (c.deliver peer serve).2 else c).replicas[j]? =
      if fate.Served ∧ c.whoAnswers? peer = some j then c.replicas[j]?.map fun q => (serve q).2
      else c.replicas[j]? := by
    by_cases hfate : fate.Served
    · simp only [hfate, if_true, true_and]
      exact c.getElem?_deliver_eq peer serve j
    · simp only [hfate, if_false, false_and]
  rw [hcarried]
  rfl

end Fated

/-! ### Replicas -/

/-- Versions of a key that a store knows of leave it what it holds of the key, whatever it
absorbs of other keys. -/
lemma Store.versions_absorbEach_of_knows {s : Store} {key : String}
    {pairs : List (String × Siblings)}
    (h : ∀ p ∈ pairs, p.1 = key → ∀ v ∈ p.2, s.Knows key v.clock) :
    (s.absorbEach pairs).2.versions key = s.versions key := by
  induction pairs generalizing s with
  | nil => rfl
  | cons p rest ih =>
    rw [List.forall_mem_cons] at h
    have hfirst : (s.absorb p.1 p.2).2.versions key = s.versions key := by
      by_cases hkey : p.1 = key
      · subst hkey
        rw [(absorb_of_knows (h.1 rfl)).2]
      · exact versions_absorb_of_ne hkey
    rw [snd_absorbEach_cons, ih fun q hq hkey v hv => knows_absorb.mpr (.inl (h.2 q hq hkey v hv)),
      hfirst]

/-- A replica that is given nothing new of a key holds what it held of the key. -/
lemma Replica.Evolves.versions_eq_of_knows {Given : String → Siblings → Prop} {Relisted : Prop}
    {r r' : Replica} {key : String} (h : r.Evolves Given Relisted r')
    (hknown : ∀ versions, Given key versions → ∀ v ∈ versions, r.store.Knows key v.clock) :
    r'.store.versions key = r.store.versions key := by
  obtain ⟨pairs, hgiven, hstore⟩ := h.store
  rw [hstore]
  refine Store.versions_absorbEach_of_knows fun p hp hkey => ?_
  subst hkey
  exact hknown p.2 (hgiven p hp)

/-- A replica absorbs what it is given, and stays in service unless it crashes. -/
structure Replica.Follows (Given : String → Siblings → Prop) (Relisted Crashed : Prop)
    (r r' : Replica) : Prop where
  evolves : r.Evolves Given Relisted r'
  inService : ¬ Crashed → r.outage.down = false → r'.outage.down = false

namespace Replica

variable {Given : String → Siblings → Prop} {Relisted Crashed : Prop} {r r' r'' : Replica}
variable {key : String} {versions : Siblings}

/-- A replica in service refuses a write of whose clock it knows. -/
lemma write_of_knows {context : Clock} {value : Bytes} (hup : r.outage.down = false)
    (h : r.store.Knows key (context.increment r.id)) :
    r.write key context value = .error .stale := by
  have hunchanged : ¬ ((r.store.versions key).merge [⟨context.increment r.id, value⟩]).changed
      = true := by
    rw [Siblings.changed_merge_iff]
    rintro ⟨v, hv, hnew⟩
    rw [List.mem_singleton.mp hv] at hnew
    exact hnew h
  simp [write_eq, hup, Store.absorb, hunchanged]

/-- A replica in service accepts any other write, and holds the merge then. -/
lemma write_of_not_knows {context : Clock} {value : Bytes} (hup : r.outage.down = false)
    (h : ¬ r.store.Knows key (context.increment r.id)) :
    let merged := ((r.store.versions key).merge [⟨context.increment r.id, value⟩]).versions
    r.write key context value = .ok (merged, { r with store := r.store.insert key merged }) := by
  have hchanged : ((r.store.versions key).merge [⟨context.increment r.id, value⟩]).changed
      = true := Siblings.changed_merge_iff.mpr ⟨_, List.mem_singleton_self _, h⟩
  simp [write_eq, hup, Store.absorb, hchanged]

lemma Follows.refl (r : Replica) : Follows Given Relisted Crashed r r :=
  ⟨.refl r, fun _ hup => hup⟩

lemma Follows.trans (h : Follows Given Relisted Crashed r r')
    (h' : Follows Given Relisted Crashed r' r'') : Follows Given Relisted Crashed r r'' :=
  ⟨h.evolves.trans h'.evolves, fun hcrash hup => h'.inService hcrash (h.inService hcrash hup)⟩

lemma follows_replicate (h : r.outage.down = false → Given key versions) :
    Follows Given Relisted Crashed r (r.replicate key versions).2 := by
  by_cases hdown : r.outage.down = true
  · rw [replicate_eq, if_pos hdown]
    exact .refl r
  · refine ⟨evolves_replicate (h (by simpa using hdown)), fun _ hup => ?_⟩
    rw [replicate_eq, if_neg hdown]
    exact hup

lemma follows_absorb {pushed : Store}
    (h : r.outage.down = false → ∀ key versions, pushed.get? key = some versions →
      Given key versions) : Follows Given Relisted Crashed r (r.absorb pushed).2 := by
  by_cases hdown : r.outage.down = true
  · rw [absorb_eq, if_pos hdown]
    exact .refl r
  · refine ⟨evolves_absorb (h (by simpa using hdown)), fun _ hup => ?_⟩
    rw [absorb_eq, if_neg hdown]
    exact hup

/-- What a request leaves of a replica has absorbed what the request gives. -/
lemma evolves_upon {request : Request} (hgiven : ∀ p ∈ request.given r.id, Given p.1 p.2)
    (hlist : ∀ list, request = .assignList list → Relisted) (now : ℕ) :
    r.Evolves Given Relisted (r.upon request now) := by
  cases request with
  | crash seconds =>
    simp only [upon]
    split
    · exact .of_eq rfl rfl rfl (fun _ => rfl) rfl
    · exact .refl r
  | assignList list => exact .of_eq rfl rfl rfl (fun h => absurd (hlist list rfl) h) rfl
  | _ =>
    simp only [upon]
    split
    · exact .refl r
    · exact ⟨rfl, rfl, rfl, fun _ => rfl, _, hgiven, rfl⟩

/-- What a replica counts does not matter. -/
lemma Follows.of_uncounted_eq (h : r''.uncounted = r'.uncounted)
    (hfollows : Follows Given Relisted Crashed r r') : Follows Given Relisted Crashed r r'' := by
  obtain ⟨⟨hendpoint, hid, hquorum, hlist, pairs, hpairs, hstore⟩, hup⟩ := hfollows
  exact ⟨⟨(congrArg Replica.endpoint h).trans hendpoint, (congrArg Replica.id h).trans hid,
      (congrArg Replica.quorum h).trans hquorum,
      fun hsame => (congrArg Replica.list h).trans (hlist hsame), pairs, hpairs,
      (congrArg Replica.store h).trans hstore⟩,
    fun hstays hdown => (congrArg (·.outage.down) h).trans (hup hstays hdown)⟩

lemma follows_act_request {request : Request} (hgiven : ∀ p ∈ request.given r.id, Given p.1 p.2)
    (hlist : ∀ list, request = .assignList list → Relisted)
    (hcrash : ∀ seconds, request = .crash seconds → Crashed) (answers : List Answer) :
    Follows Given Relisted Crashed r (r.act (.request request answers)).2 := by
  refine .of_uncounted_eq (r.uncounted_act_request request answers)
    ⟨evolves_upon hgiven hlist 0, fun hstays hup => ?_⟩
  rw [outage_upon ?_, hup]
  intro hmethod
  cases request with
  | crash seconds => exact hstays (hcrash seconds rfl)
  | _ => cases hmethod

lemma follows_write {context : Clock} {value : Bytes} {merged : Siblings}
    (h : r.write key context value = .ok (merged, r'))
    (hgiven : Given key [⟨context.increment r.id, value⟩]) :
    Follows Given Relisted Crashed r r' := by
  refine ⟨evolves_write h hgiven, fun _ hup => ?_⟩
  obtain ⟨-, -, rfl⟩ := write_eq_ok h
  exact hup

lemma follows_afterCall (method : Method) (failure : Option CallError) :
    Follows Given Relisted Crashed r (r.afterCall method failure) := by
  cases failure with
  | none => exact .refl r
  | some e => exact ⟨evolves_countFailure, fun _ hup => hup⟩

end Replica

/-! ### Clusters -/

/-- What is left of one replica of a cluster follows from what it was. -/
def Cluster.FollowsAt (Given : String → Siblings → Prop) (Relisted Crashed : Prop) (j : ℕ)
    (c c' : Cluster) : Prop :=
  ∀ q, c.replicas[j]? = some q →
    ∃ q', c'.replicas[j]? = some q' ∧ q.Follows Given Relisted Crashed q'

namespace Cluster

variable {Given : String → Siblings → Prop} {Relisted Crashed : Prop} {c c' : Cluster} {i j : ℕ}

lemma FollowsAt.refl (c : Cluster) : FollowsAt Given Relisted Crashed j c c :=
  fun q hq => ⟨q, hq, .refl q⟩

lemma followsAt_modify {f : Replica → Replica}
    (h : ∀ q, c.replicas[i]? = some q → i = j → q.Follows Given Relisted Crashed (f q)) :
    FollowsAt Given Relisted Crashed j c (c.modify i f) := by
  intro q hq
  rw [modify, List.getElem?_modify, hq]
  refine ⟨if i = j then f q else q, rfl, ?_⟩
  by_cases hij : i = j
  · rw [if_pos hij]
    exact h q (hij ▸ hq) hij
  · rw [if_neg hij]
    exact .refl q

lemma followsAt_deliver {α : Type} {e : Endpoint}
    {serve : Replica → Except Refusal α × Replica}
    (h : ∀ q, c.whoAnswers? e = some j → c.replicas[j]? = some q →
      q.Follows Given Relisted Crashed (serve q).2) :
    FollowsAt Given Relisted Crashed j c (c.deliver e serve).2 := by
  intro q hq
  rw [getElem?_deliver_eq]
  split
  · rename_i hj
    exact ⟨_, by rw [hq, Option.map_some], h q hj hq⟩
  · exact ⟨q, hq, .refl q⟩

end Cluster

/-- A request that begins no operation is served by the replica that is asked, alone. -/
lemma Cluster.act_eq_of_begin_eq_none {c : Cluster} {i : ℕ} {r : Replica} {request : Request}
    {fates : List Fate} (hr : c.replicas[i]? = some r) (hbegin : r.begin i request = none) :
    c.act (.request i request fates) = ((r.act (.request request [])).1,
      c.modify i fun _ => (r.act (.request request [])).2) := by
  have hself : (Fated.surroundings i r).self ⟨c, fates⟩ = r := Fated.self_surroundings hr
  have hself' : Answered.surroundings.self ⟨r, []⟩ = r := Answered.self_surroundings _
  have hsame : c.modify i (fun _ => r) = c := modify_of_getElem? hr
  have hmodify : ∀ f : Replica → Replica, c.modify i f = c.modify i fun _ => f r := fun f => by
    simp only [modify, List.modify_eq_set, hr, Option.getD_some]
  simp only [act, Replica.act, hr]
  cases request with
  | put key context value | get key | gossip =>
    obtain ⟨e, hrefused⟩ :=
      Replica.exists_refusal_of_begin_eq_none (by simp [Request.method]) hbegin
    rw [hrefused _ _ hself, hrefused _ _ hself']
    simp only [hsame]
  | replicate key versions =>
    simp only [Coordination.perform, hself, hself']
    rfl
  | fetch key =>
    simp only [Coordination.perform, hself, hself', hsame]
  | absorb pushed =>
    simp only [Coordination.perform, hself, hself']
    rfl
  | crash seconds =>
    have hnow : (Fated.surroundings i r).now ⟨c, fates⟩ = Answered.surroundings.now ⟨r, []⟩ := rfl
    simp only [Coordination.perform, Coordination.crash, Coordination.crashFor, hself, hself', hnow]
    split
    · simp only [hsame]
    · exact Prod.ext rfl (hmodify _)
  | assignList list => exact Prod.ext rfl (hmodify _)

/-- Of a call a peer gets what it is sent if the call is served, and the caller counts. -/
lemma Fated.followsAt_counted_exchange {Given : String → Siblings → Prop}
    {Relisted Crashed : Prop} {α : Type} {i j : ℕ} {r : Replica} {method : Method}
    {peer : Endpoint} {c : Cluster} (serve : Replica → Except Refusal α × Replica) {fate : Fate}
    (h : ∀ q, fate.Served → c.whoAnswers? peer = some j → c.replicas[j]? = some q →
      q.Follows Given Relisted Crashed (serve q).2) :
    c.FollowsAt Given Relisted Crashed j (Coordination.counted (surroundings i r) method
      (fun p => exchange p serve) peer ⟨c, [fate]⟩).2.cluster := by
  intro q hq
  rw [getElem?_counted_exchange, hq]
  have hcounted : ∀ q', q.Follows Given Relisted Crashed q' → ∀ failure,
      q.Follows Given Relisted Crashed (if i = j then q'.afterCall method failure else q') := by
    intro q' hq' failure
    split
    · exact hq'.trans (Replica.follows_afterCall method failure)
    · exact hq'
  by_cases hserved : fate.Served ∧ c.whoAnswers? peer = some j
  · rw [if_pos hserved]
    exact ⟨_, rfl, hcounted _ (h q hserved.1 hserved.2 hq) _⟩
  · rw [if_neg hserved]
    exact ⟨_, rfl, hcounted _ (.refl q) _⟩

/-- A message that arrives gives what it carries to the replica that takes it. -/
lemma Letter.followsAt_arrive {Given : String → Siblings → Prop} {Relisted Crashed : Prop}
    {l : Letter} {c : Cluster} {j : ℕ}
    (h : l.TakenBy c j → ∀ key versions, l.Carries key versions → Given key versions) :
    c.FollowsAt Given Relisted Crashed j (l.arrive c) := by
  cases l with
  | replicate peer key versions =>
    refine Cluster.followsAt_deliver fun q hj hq => Replica.follows_replicate fun hup => ?_
    exact h ⟨hj, q, hq, hup⟩ key versions ⟨rfl, rfl⟩
  | absorb peer pushed =>
    refine Cluster.followsAt_deliver fun q hj hq => Replica.follows_absorb fun hup => ?_
    exact h ⟨hj, q, hq, hup⟩

/-- So does a call that is served. -/
lemma Errand.followsAt_ask {Given : String → Siblings → Prop} {Relisted Crashed : Prop}
    {x : Errand} {i j : ℕ} {r : Replica} {peer : Endpoint} {c : Cluster} {fate : Fate}
    (h : ∀ l, x.letter? peer = some l → fate.Served → l.TakenBy c j → ∀ key versions,
      l.Carries key versions → Given key versions) :
    c.FollowsAt Given Relisted Crashed j
      (x.ask (Fated.surroundings i r) peer ⟨c, [fate]⟩).2.cluster := by
  cases x with
  | put write merged acks =>
    refine Fated.followsAt_counted_exchange (·.replicate write.key merged)
      fun q hfate hj hq => Replica.follows_replicate fun hup => ?_
    exact h _ rfl hfate ⟨hj, q, hq, hup⟩ _ _ ⟨rfl, rfl⟩
  | get key reads versions =>
    exact Fated.followsAt_counted_exchange (Cluster.serveFetch key) fun q _ _ _ => .refl q
  | gossip snapshot reached =>
    refine Fated.followsAt_counted_exchange (·.absorb snapshot)
      fun q hfate hj hq => Replica.follows_absorb fun hup => ?_
    exact h _ rfl hfate ⟨hj, q, hq, hup⟩

/-! ### Moves -/

namespace Traffic

variable {s t : Traffic} {m : Move} {i j k : ℕ} {r q : Replica} {key : String}

/-- What a move gives to a replica: what it is asked to take, or what is brought to it by a
message that it takes. -/
inductive Gives (s : Traffic) : Move → ℕ → String → Siblings → Prop where
  | asked {i : ℕ} {request : Request} {r : Replica} {key : String} {versions : Siblings}
      (hr : s.cluster.replicas[i]? = some r) (hgiven : (key, versions) ∈ request.given r.id) :
      Gives s (.request i request) i key versions
  | called {k j : ℕ} {fate : Fate} {o : Operation} {l : Letter} {key : String}
      {versions : Siblings} (ho : s.operations[k]? = some o) (hl : o.Sends l)
      (hfate : fate.Served) (hj : l.TakenBy s.cluster j) (hcarries : l.Carries key versions) :
      Gives s (.call k fate) j key versions
  | arrived {n j : ℕ} {l : Letter} {key : String} {versions : Siblings}
      (hl : s.letters[n]? = some l) (hj : l.TakenBy s.cluster j)
      (hcarries : l.Carries key versions) : Gives s (.arrival n) j key versions

/-- A replica is asked to go out of service. -/
def Crashes (i : ℕ) (m : Move) : Prop :=
  ∃ seconds, m = .request i (.crash seconds)

/-- A replica that is asked for something does no more than its own part of it. -/
lemma followsAt_ask (s : Traffic) (i j : ℕ) (request : Request) :
    s.cluster.FollowsAt (s.Gives (.request i request) j) (Relists (.request i request))
      (Crashes j (.request i request)) j (s.ask i request).cluster := by
  rcases s.ask_cases i request with ⟨r, r', o, hr, hbegin, hask⟩ | ⟨hbegin, hask⟩
  · rw [hask]
    refine Cluster.followsAt_modify fun q hq hij => ?_
    cases hr.symm.trans hq
    subst hij
    rcases Replica.begin_eq_some hbegin with
      ⟨key, context, value, merged, rfl, hwrite, rfl⟩ | ⟨rfl, -⟩
    · exact Replica.follows_write hwrite (.asked hr (List.mem_singleton_self _))
    · exact .refl _
  · rw [hask]
    cases hr : s.cluster.replicas[i]? with
    | none =>
      rw [Cluster.act, hr]
      exact .refl s.cluster
    | some r =>
      rw [Cluster.act_eq_of_begin_eq_none hr (hbegin r hr)]
      refine Cluster.followsAt_modify fun q hq hij => ?_
      cases hr.symm.trans hq
      subst hij
      exact Replica.follows_act_request (fun p hp => .asked hr hp)
        (fun list h => ⟨i, list, h ▸ rfl⟩) (fun seconds h => ⟨seconds, h ▸ rfl⟩) []

/-- **One move.**  After a move a replica has absorbed what the move gives it.  It has another
preference list only if it is given one, and is out of service only if it was or is asked
to be. -/
theorem followsAt_after (s : Traffic) (m : Move) (j : ℕ) :
    s.cluster.FollowsAt (s.Gives m j) (Relists m) (Crashes j m) j (s.after m).cluster := by
  cases m with
  | request i request => exact s.followsAt_ask i j request
  | call k fate =>
    change s.cluster.FollowsAt _ _ _ j (s.call k fate).cluster
    rcases s.call_cases k fate with hcall | ⟨o, peer, rest, answer, f, ho, henough, hrest, hask,
      hcall⟩
    · rw [hcall]
      exact .refl s.cluster
    · have hfollows : s.cluster.FollowsAt (s.Gives (.call k fate) j) (Relists (.call k fate))
          (Crashes j (.call k fate)) j
          (o.errand.ask (Fated.surroundings o.node default) peer ⟨s.cluster, [fate]⟩).2.cluster :=
        Errand.followsAt_ask fun l hl hfate hj key versions hcarries =>
          .called ho ⟨henough, peer, rest, hrest, hl⟩ hfate hj hcarries
      rw [hask] at hfollows
      rwa [hcall]
  | arrival n =>
    change s.cluster.FollowsAt _ _ _ j (s.arrive n).cluster
    rw [arrive]
    cases hl : s.letters[n]? with
    | none => exact .refl s.cluster
    | some l =>
      exact Letter.followsAt_arrive fun hj key versions hcarries => .arrived hl hj hcarries
  | recovery i =>
    refine Cluster.followsAt_modify fun q _ _ => ?_
    refine ⟨.of_eq rfl rfl rfl (fun _ => rfl) rfl, fun _ hup => ?_⟩
    simp [Outage.expire, hup]
  | detachment i =>
    intro q hq
    refine ⟨q, ?_, .refl q⟩
    simp only [after, Cluster.act]
    cases s.cluster.replicas[i]? with
    | none => exact hq
    | some r => exact hq
  | attachment i =>
    intro q hq
    refine ⟨q, ?_, .refl q⟩
    simp only [after, Cluster.act, Cluster.attach]
    cases s.cluster.replicas[i]? with
    | none => exact hq
    | some r => exact hq

/-! ### What a replica holds of a key -/

/-- A move gives a replica no versions of a key, and does not put it out of service. -/
def Spares (i : ℕ) (key : String) (s : Traffic) (m : Move) : Prop :=
  (∀ versions, ¬ s.Gives m i key versions) ∧ ¬ Crashes i m

/-- A move gives a replica no versions of a key but such that a clock is equal to or after
theirs. -/
def GivesUpTo (i : ℕ) (key : String) (clock : Clock) (s : Traffic) (m : Move) : Prop :=
  ∀ versions, s.Gives m i key versions → ∀ v ∈ versions, v.clock ≤ clock

/-- A move that gives a replica nothing new of a key leaves it what it holds of the key. -/
lemma exists_after_of_knows (hr : s.cluster.replicas[i]? = some r)
    (hknown : ∀ versions, s.Gives m i key versions → ∀ v ∈ versions, r.store.Knows key v.clock) :
    ∃ r', (s.after m).cluster.replicas[i]? = some r' ∧ r'.id = r.id ∧
      r'.store.versions key = r.store.versions key ∧
      (¬ Crashes i m → r.outage.down = false → r'.outage.down = false) := by
  obtain ⟨r', hr', hfollows⟩ := s.followsAt_after m i r hr
  exact ⟨r', hr', hfollows.evolves.id, hfollows.evolves.versions_eq_of_knows hknown,
    hfollows.inService⟩

/-- **Spared.**  A replica that is given nothing of a key holds what it held of it; if it is
not put out of service either, it stays in service. -/
theorem Reaches.exists_of_spares (h : Reaches (Spares i key) s t)
    (hr : s.cluster.replicas[i]? = some r) (hup : r.outage.down = false) :
    ∃ r', t.cluster.replicas[i]? = some r' ∧ r'.id = r.id ∧
      r'.store.versions key = r.store.versions key ∧ r'.outage.down = false := by
  induction h with
  | refl => exact ⟨r, hr, rfl, rfl, hup⟩
  | step _ hspares ih =>
    obtain ⟨r', hr', hid, hversions, hup'⟩ := ih
    obtain ⟨r'', hr'', hid', hversions', hup''⟩ :=
      exists_after_of_knows hr' fun versions hgives => absurd hgives (hspares.1 versions)
    exact ⟨r'', hr'', hid'.trans hid, hversions'.trans hversions, hup'' hspares.2 hup'⟩

/-- **Nothing new.**  A replica that covers a clock holds what it holds as long as it is given
nothing beyond that clock. -/
theorem Reaches.versions_of_givesUpTo {clock : Clock} (h : Reaches (GivesUpTo i key clock) s t)
    (hcovers : (s.cluster.versions i key).Covers clock) :
    t.cluster.versions i key = s.cluster.versions i key := by
  induction h with
  | refl => rfl
  | @step t m _ hgives ih =>
    rw [← ih] at hcovers ⊢
    cases hr : t.cluster.replicas[i]? with
    | none =>
      rw [Cluster.versions, hr] at hcovers
      exact absurd hcovers Siblings.not_covers_nil
    | some r =>
      rw [Cluster.versions_of_getElem? hr] at hcovers ⊢
      obtain ⟨r', hr', -, hversions, -⟩ := exists_after_of_knows hr fun versions hgiven v hv =>
        hcovers.anti (hgives versions hgiven v hv)
      rw [Cluster.versions_of_getElem? hr', hversions]

end Traffic

end QuorumStore
