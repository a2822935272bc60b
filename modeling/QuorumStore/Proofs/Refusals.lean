/-
What a refused request leaves behind.

* `Cluster.uncounted_run`: what replicas have counted does not matter for what happens;
* `Coordination.dispatch_eq_error`: a fault that is replied reports a refusal;
* `Coursed.eq_wait_of_fault`: in time, a refused request leaves what waiting would have left;
* `Busy.eq_run_of_fault`: where other things happen meanwhile, it leaves what they would have
  left;
* `Coursed.holds_of_put`: a write that is accepted is held, whatever the peers answer;
* `Timeline.untouched_of_fault`: all of this for any cluster that events lead to.
-/
import QuorumStore.Cluster.Busy
import QuorumStore.Proofs.KeyIndependence
import QuorumStore.Proofs.Timekeeping

namespace QuorumStore

/-! ### What is counted does not matter -/

namespace Replica

variable {r r' : Replica}

/-- Replicas are equal apart from what they count if they agree on every key. -/
lemma uncounted_eq_iff : r.uncounted = r'.uncounted ↔ ∀ key, r.onKey key = r'.onKey key := by
  constructor
  · intro h key
    exact (congrArg (onKey key) h :)
  · intro h
    have hstore : r.store = r'.store := KeyMap.ext_get? fun key => get?_of_onKey_eq (h key)
    have hrest := h ""
    simp only [onKey, mk.injEq] at hrest
    simp only [uncounted, mk.injEq]
    exact ⟨hrest.1, hrest.2.1, hrest.2.2.1, hrest.2.2.2.1, hrest.2.2.2.2.1, hstore,
      hrest.2.2.2.2.2.2.1, trivial⟩

end Replica

namespace Cluster

variable {c c' : Cluster}

lemma uncounted_eq_iff_onKey : c.uncounted = c'.uncounted ↔ ∀ key, c.onKey key = c'.onKey key := by
  constructor
  · intro h key
    obtain ⟨hreplicas, hdirectory⟩ := uncounted_eq_iff.mp h
    refine onKey_eq_iff.mpr ⟨fun i => ?_, hdirectory⟩
    have hi := congrArg (Option.map (Replica.onKey key)) (hreplicas i)
    rw [Option.map_map, Option.map_map] at hi
    exact hi
  · intro h
    refine uncounted_eq_iff.mpr ⟨fun i => ?_, (onKey_eq_iff.mp (h "")).2⟩
    rcases onKey_getElem?_cases (h "") i with ⟨hr, hr'⟩ | ⟨r, r', hr, hr', -⟩
    · rw [hr, hr']
    · rw [hr, hr', Option.map_some, Option.map_some, Option.some.injEq]
      refine Replica.uncounted_eq_iff.mpr fun key => ?_
      have hi := (onKey_eq_iff.mp (h key)).1 i
      rw [hr, hr'] at hi
      exact Option.some.inj hi

lemma uncounted_act (h : c.uncounted = c'.uncounted) (event : Event) :
    (c.act event).2.uncounted = (c'.act event).2.uncounted := by
  refine uncounted_eq_iff_onKey.mpr fun key => ?_
  have hkey : c.onKey key = c'.onKey key := uncounted_eq_iff_onKey.mp h key
  cases hevent : event.restrict key with
  | none => rw [onKey_act hevent, onKey_act hevent, hkey]
  | some event' =>
    -- both come to what the part of the event does that has to do with the key
    have hleft := (Prod.mk.inj (act_congr hevent hkey)).2
    have hright := (Prod.mk.inj (act_congr hevent (rfl : c'.onKey key = _))).2
    exact hleft.trans hright.symm

/-- **Counting changes nothing.**  Clusters that are equal apart from what their replicas have
counted stay so, whatever happens to both. -/
theorem uncounted_run (h : c.uncounted = c'.uncounted) (events : List Event) :
    (c.run events).uncounted = (c'.run events).uncounted := by
  induction events generalizing c c' with
  | nil => exact h
  | cons event rest ih => exact ih (uncounted_act h event)

/-- A read that a peer serves changes nothing. -/
lemma deliver_serveFetch (c : Cluster) (e : Endpoint) (key : String) :
    (c.deliver e (serveFetch key)).2 = c := by
  rw [deliver]
  split
  · rfl
  · split
    · rfl
    · rename_i r hr
      change c.set _ r = c
      rw [set, set_of_getElem? hr]

lemma uncounted_modify_count {f : Replica → Replica} (hf : ∀ r, (f r).uncounted = r.uncounted)
    (c : Cluster) (i : ℕ) : (c.modify i f).uncounted = c.uncounted := by
  have htwice : c.uncounted.uncounted = c.uncounted := by
    simp [uncounted, Replica.uncounted]
  have hid : c.uncounted.modify i id = c.uncounted := by simp [modify]
  rw [uncounted_modify (g := id) hf, hid, htwice]

end Cluster

namespace Coordination

variable {σ : Type} {env : Surroundings σ} {request : Request} {s : σ} {fault : Fault}

/-- A fault that is replied reports a refusal that concerns the request. -/
lemma dispatch_eq_error (h : (dispatch env request s).1 = .error fault) :
    ∃ e : Refusal, (perform env request s).1 = .error e ∧ fault = .ofRefusal e ∧
      e.Concerns request := by
  have hmap : (perform env request s).1.mapError Fault.ofRefusal = .error fault :=
    Except.eq_error_of_map_eq_error h
  cases hperform : (perform env request s).1 with
  | ok outcome =>
    rw [hperform] at hmap
    cases hmap
  | error e =>
    rw [hperform] at hmap
    exact ⟨e, rfl, (Except.error.inj hmap).symm, concerns_of_perform hperform⟩

/-- A request that is refused comes to no more than reads of peers and counting, in the sense
of a relation that can be chained. -/
lemma dispatch_rel_of_error {R : σ → σ → Prop} (hrefl : ∀ s, R s s)
    (htrans : ∀ {s t u}, R s t → R t u → R s u)
    (hfetch : ∀ e key s, R s (env.fetch e key s).2)
    (hcount : ∀ f, (∀ r : Replica, (f r).uncounted = r.uncounted) → ∀ s, R s (env.update f s))
    (hself : env.update (fun _ => env.self s) s = s)
    (h : (dispatch env request s).1 = .error fault) : R s (dispatch env request s).2 := by
  obtain ⟨e, hrefused, -, -⟩ := dispatch_eq_error h
  have hperform : R s (perform env request s).2 := by
    by_cases hmethod : request.method = .get
    · cases request with
      | get key => exact get_rel hrefl htrans (hfetch · key) (fun _ => hcount _ fun _ => rfl) s
      | _ => cases hmethod
    · rw [perform_eq_error hrefused hself hmethod]
      exact hrefl s
  exact htrans hperform (hcount (·.countServed _ _) (fun _ => rfl) _)

end Coordination

/-! ### Time -/

namespace Timeline

variable {t t' t'' : Timeline}

lemma carry_serveFetch (t : Timeline) (course : Course) (e : Endpoint) (key : String) :
    (t.carry course e (Cluster.serveFetch key)).2 = t.wait course.time := by
  have hdeliver : ∀ u : Timeline, (u.deliver e (Cluster.serveFetch key)).2 = u := fun u => by
    change { u with cluster := (u.cluster.deliver e (Cluster.serveFetch key)).2 } = u
    rw [Cluster.deliver_serveFetch]
  cases course with
  | served ms => exact hdeliver _
  | servedFirst ms heard => exact congrArg (wait · ms) (hdeliver t)
  | lost ms error => rfl

/-- Apart from what is counted, all that happens is that time passes. -/
def Idles (t t' : Timeline) : Prop :=
  t.Orderly → t'.Orderly ∧ ∃ ms, t'.uncounted = (t.wait ms).uncounted

lemma Idles.refl (t : Timeline) : Idles t t := fun h => ⟨h, 0, rfl⟩

lemma Idles.trans (h : Idles t t') (h' : Idles t' t'') : Idles t t'' := fun ht => by
  obtain ⟨ht', m, hm⟩ := h ht
  obtain ⟨ht'', n, hn⟩ := h' ht'
  refine ⟨ht'', m + n, ?_⟩
  have hnow : t'.now = (t.wait m).now := (congrArg now hm :)
  calc t''.uncounted = (t'.wait n).uncounted := hn
    _ = (t'.pass (· < t'.now + n) (t'.now + n)).uncounted := by rw [ht'.wait_eq]
    _ = ((t.wait m).pass (· < (t.wait m).now + n) ((t.wait m).now + n)).uncounted := by
      rw [uncounted_pass hm, hnow]
    _ = ((t.wait m).wait n).uncounted := by rw [(ht.wait m).wait_eq]
    _ = (t.wait (m + n)).uncounted := by rw [ht.wait_wait]

/-- Counting takes no time. -/
lemma idles_modify {f : Replica → Replica} (hf : ∀ r, (f r).uncounted = r.uncounted)
    (t : Timeline) (i : ℕ) : Idles t (t.modify i f) := fun h =>
  ⟨h.of_eq rfl rfl rfl, 0, congrArg (fun c => { t with cluster := c })
    (Cluster.uncounted_modify_count hf t.cluster i)⟩

lemma idles_wait (t : Timeline) (ms : ℕ) : Idles t (t.wait ms) := fun h => ⟨h.wait ms, ms, rfl⟩

/-- The time that has passed is the one that the clock shows. -/
lemma Idles.eq_wait (h : Idles t t') (ht : t.Orderly) :
    t'.uncounted = (t.wait (t'.now - t.now)).uncounted := by
  obtain ⟨-, ms, hms⟩ := h ht
  have hnow : t'.now = t.now + ms := (congrArg now hms :).trans (by rw [ht.wait_eq]; rfl)
  rw [hms, hnow, Nat.add_sub_cancel_left]

end Timeline

namespace Coursed

variable {i : ℕ} {r : Replica} {request : Request} {t : Timeline}

lemma update_self (i : ℕ) (r : Replica) (s : Coursed) :
    (surroundings i r).update (fun _ => (surroundings i r).self s) s = s :=
  congrArg (fun c => { s with time := { s.time with cluster := c } })
    (Cluster.modify_self s.time.cluster i r)

lemma idles_fetch (e : Endpoint) (key : String) (s : Coursed) :
    Timeline.Idles s.time ((surroundings i r).fetch e key s).2.time := by
  change Timeline.Idles s.time (s.time.carry _ e (Cluster.serveFetch key)).2
  rw [Timeline.carry_serveFetch]
  exact Timeline.idles_wait _ _

/-- **A refused request takes time and does nothing else.** -/
theorem eq_wait_of_fault {fault : Fault} {courses : List Course} (ht : t.Orderly)
    (h : (Coordination.dispatch (surroundings i r) request ⟨t, courses⟩).1 = .error fault) :
    let t' := (Coordination.dispatch (surroundings i r) request ⟨t, courses⟩).2.time
    t'.uncounted = (t.wait (t'.now - t.now)).uncounted := by
  have hidles := Coordination.dispatch_rel_of_error
    (R := fun s u : Coursed => Timeline.Idles s.time u.time) (fun _ => .refl _) .trans idles_fetch
    (fun _ hf s => Timeline.idles_modify hf s.time i) (update_self i r _) h
  exact hidles.eq_wait ht

end Coursed

/-! ### Other things that happen meanwhile -/

namespace Busy

variable {i : ℕ} {r : Replica} {request : Request} {b b' b'' : Busy}

/-- Apart from what is counted, all that happens to a cluster are other things. -/
def Idles (b b' : Busy) : Prop :=
  ∃ more, b'.past = b.past ++ more ∧ b'.cluster.uncounted = (b.cluster.run more).uncounted

lemma Idles.refl (b : Busy) : Idles b b := ⟨[], (List.append_nil _).symm, rfl⟩

lemma Idles.trans (h : Idles b b') (h' : Idles b' b'') : Idles b b'' := by
  obtain ⟨more, hpast, hcluster⟩ := h
  obtain ⟨more', hpast', hcluster'⟩ := h'
  refine ⟨more ++ more', by rw [hpast', hpast, List.append_assoc], ?_⟩
  calc b''.cluster.uncounted = (b'.cluster.run more').uncounted := hcluster'
    _ = ((b.cluster.run more).run more').uncounted := Cluster.uncounted_run hcluster more'
    _ = (b.cluster.run (more ++ more')).uncounted := by rw [Cluster.run_append]

/-- A read of a peer does nothing to a cluster. -/
lemma idles_fetch (e : Endpoint) (key : String) (b : Busy) :
    Idles b (exchange e (Cluster.serveFetch key) b).2 := by
  let call := b.calls.headD ⟨[], .heard, []⟩
  let reached := b.cluster.run call.before
  have hcluster :
      (Fated.exchange e (Cluster.serveFetch key) ⟨reached, [call.fate]⟩).2.cluster = reached := by
    rw [Fated.exchange]
    split
    · exact Cluster.deliver_serveFetch reached e key
    · rfl
    · exact Cluster.deliver_serveFetch reached e key
  refine ⟨call.before ++ call.after, rfl, ?_⟩
  rw [Cluster.run_append]
  exact congrArg (fun c => (Cluster.run c call.after).uncounted) hcluster

/-- Nothing happens while a replica counts. -/
lemma idles_update {f : Replica → Replica} (hf : ∀ r, (f r).uncounted = r.uncounted) (b : Busy) :
    Idles b ((surroundings i r).update f b) :=
  ⟨[], (List.append_nil _).symm, Cluster.uncounted_modify_count hf b.cluster i⟩

lemma update_self (i : ℕ) (r : Replica) (b : Busy) :
    (surroundings i r).update (fun _ => (surroundings i r).self b) b = b :=
  congrArg (fun c => { b with cluster := c }) (Cluster.modify_self b.cluster i r)

/-- **A refused request leaves what the other things leave.** -/
theorem eq_run_of_fault {fault : Fault} {c : Cluster} {calls : List Call}
    (h : (Coordination.dispatch (surroundings i r) request ⟨c, calls, []⟩).1 = .error fault) :
    let b := (Coordination.dispatch (surroundings i r) request ⟨c, calls, []⟩).2
    b.cluster.uncounted = (c.run b.past).uncounted := by
  obtain ⟨more, hpast, hcluster⟩ := Coordination.dispatch_rel_of_error (R := Idles) .refl .trans
    idles_fetch (fun _ => idles_update) (update_self i r _) h
  exact hcluster.trans (congrArg (fun events => (c.run events).uncounted) hpast.symm)

end Busy

/-! ### Accepted writes -/

/-- The replica at an index holds these versions of a key. -/
def Cluster.HoldsAt (c : Cluster) (i : ℕ) (key : String) (versions : Siblings) : Prop :=
  ∃ r, c.replicas[i]? = some r ∧ r.store.versions key = versions

namespace Cluster

variable {c : Cluster} {i : ℕ} {key : String} {versions : Siblings}

/-- A change that leaves the versions alone leaves them where they are held. -/
lemma HoldsAt.modify {f : Replica → Replica}
    (hf : ∀ r : Replica, r.store.versions key = versions → (f r).store.versions key = versions)
    (h : c.HoldsAt i key versions) (j : ℕ) : (c.modify j f).HoldsAt i key versions := by
  obtain ⟨r, hr, hversions⟩ := h
  simp only [HoldsAt, Cluster.modify, List.getElem?_modify, hr]
  by_cases hij : j = i
  · exact ⟨f r, by simp [hij], hf r hversions⟩
  · exact ⟨r, by simp [hij], hversions⟩

lemma HoldsAt.deliver {α : Type} {serve : Replica → Except Refusal α × Replica}
    (hserve : ∀ r : Replica, r.store.versions key = versions →
      (serve r).2.store.versions key = versions)
    (h : c.HoldsAt i key versions) (e : Endpoint) :
    (c.deliver e serve).2.HoldsAt i key versions := by
  rw [Cluster.deliver]
  split
  · exact h
  · rename_i j _
    split
    · exact h
    · rename_i q hq
      obtain ⟨r, hr, hversions⟩ := h
      simp only [HoldsAt, Cluster.set, List.getElem?_set]
      by_cases hij : j = i
      · subst hij
        cases hr.symm.trans hq
        refine ⟨(serve q).2, ?_, hserve q hversions⟩
        rw [if_pos rfl, if_pos (List.getElem?_eq_some_iff.mp hr).1]
      · exact ⟨r, by rw [if_neg hij, hr], hversions⟩

end Cluster

/-- What a replica holds it may be sent again. -/
lemma Replica.versions_replicate {r : Replica} {key : String} {versions : Siblings}
    (h : r.store.versions key = versions) :
    (r.replicate key versions).2.store.versions key = versions := by
  rw [replicate_eq]
  split
  · exact h
  · have hknown : ∀ w ∈ versions, r.store.Knows key w.clock := fun w hw =>
      Siblings.covers_of_mem (h ▸ hw)
    simp only [(Store.absorb_of_knows hknown).2, h]

namespace Timeline

variable {t : Timeline} {i : ℕ} {key : String} {versions : Siblings}

lemma holdsAt_foldl_fire {c : Cluster} (h : c.HoldsAt i key versions) (a : Agenda Wake) :
    (a.foldl fire c).HoldsAt i key versions := by
  induction a generalizing c with
  | nil => exact h
  | cons p rest ih =>
    refine ih ?_
    obtain ⟨due, w⟩ := p
    cases w with
    | expire node episode =>
      have hexpire : ∀ q : Replica, q.store.versions key = versions →
          ({ q with outage := q.outage.expire episode } : Replica).store.versions key = versions :=
        fun _ hversions => hversions
      exact h.modify hexpire node
    | _ => exact h

lemma holdsAt_wait (ht : t.Orderly) (h : t.cluster.HoldsAt i key versions) (ms : ℕ) :
    (t.wait ms).cluster.HoldsAt i key versions := by
  rw [ht.wait_eq]
  exact holdsAt_foldl_fire h _

lemma holdsAt_carry {α : Type} {serve : Replica → Except Refusal α × Replica}
    (hserve : ∀ r : Replica, r.store.versions key = versions →
      (serve r).2.store.versions key = versions)
    (ht : t.Orderly) (h : t.cluster.HoldsAt i key versions) (course : Course) (e : Endpoint) :
    (t.carry course e serve).2.cluster.HoldsAt i key versions := by
  cases course with
  | served ms => exact (holdsAt_wait ht h ms).deliver hserve e
  | servedFirst ms heard => exact holdsAt_wait (ht.deliver e serve) (h.deliver hserve e) ms
  | lost ms error => exact holdsAt_wait ht h ms

end Timeline

namespace Coursed

variable {i : ℕ} {r : Replica} {key : String} {context : Clock} {value : Bytes} {t : Timeline}

/-- A replica goes on holding the versions of a key. -/
def Retains (i : ℕ) (key : String) (versions : Siblings) (s u : Coursed) : Prop :=
  s.time.Orderly ∧ s.time.cluster.HoldsAt i key versions →
    u.time.Orderly ∧ u.time.cluster.HoldsAt i key versions

/-- The replica that has accepted a write holds it, whatever becomes of the calls to its
peers. -/
theorem holds_of_put {receipt : Receipt} {courses : List Course} (ht : t.Orderly)
    (hr : t.cluster.replicas[i]? = some r)
    (h : (Coordination.put (surroundings i r) key context value ⟨t, courses⟩).1 = .ok receipt) :
    ∃ versions, ⟨context.increment r.id, value⟩ ∈ versions ∧
      (Coordination.put (surroundings i r) key context value ⟨t, courses⟩).2.time.cluster.HoldsAt
        i key versions := by
  have hself : (surroundings i r).self ⟨t, courses⟩ = r := by simp [surroundings, hr]
  rw [Coordination.put, hself] at h ⊢
  cases hwrite : r.write key context value with
  | error e =>
    simp only [hwrite] at h
    cases h
  | ok accepted =>
    obtain ⟨merged, r'⟩ := accepted
    refine ⟨merged, Replica.mem_of_write hwrite, ?_⟩
    -- the merged versions are held, and to be sent them again changes nothing
    have hheld : (t.modify i fun _ => r').cluster.HoldsAt i key merged := by
      refine ⟨r', ?_, Replica.versions_of_write hwrite⟩
      simp [Timeline.modify, Cluster.modify, hr]
    refine (Coordination.walk_rel (R := Retains i key merged) (fun _ h => h)
      (fun hst htu h => htu (hst h)) (fun p s => ?_) _ _ _ _ _ ⟨ht.of_eq rfl rfl rfl, hheld⟩).2
    refine Coordination.counted_rel (R := Retains i key merged) (fun hst htu h => htu (hst h))
      (fun p s h => ?_) (fun cause s h => ?_) p s
    · exact ⟨h.1.carry _ _ _,
        Timeline.holdsAt_carry (fun _ => Replica.versions_replicate) h.1 h.2 _ _⟩
    · have hcount : ∀ q : Replica, q.store.versions key = merged →
          (q.countFailure .replicate cause).store.versions key = merged :=
        fun _ hversions => hversions
      exact ⟨h.1.of_eq rfl rfl rfl, h.2.modify hcount i⟩

/-- An accepted write is still held when it has been counted and reported. -/
lemma holds_of_dispatch {response : Response} {courses : List Course} (ht : t.Orderly)
    (hr : t.cluster.replicas[i]? = some r)
    (h : (Coordination.dispatch (surroundings i r) (.put key context value) ⟨t, courses⟩).1
      = .ok response) :
    ∃ versions, ⟨context.increment r.id, value⟩ ∈ versions ∧
      (Coordination.dispatch (surroundings i r) (.put key context value)
        ⟨t, courses⟩).2.time.cluster.HoldsAt i key versions := by
  simp only [Coordination.dispatch, Coordination.perform] at h ⊢
  cases hput : (Coordination.put (surroundings i r) key context value ⟨t, courses⟩).1 with
  | error e =>
    rw [hput] at h
    cases h
  | ok receipt =>
    obtain ⟨versions, hmem, hheld⟩ := holds_of_put ht hr hput
    have hcounted : ∀ q : Replica, q.store.versions key = versions →
        (q.countServed .put "ok").store.versions key = versions := fun _ hversions => hversions
    exact ⟨versions, hmem, hheld.modify hcounted i⟩

end Coursed

namespace Timeline

/-- **Refused requests change nothing.**  Let a replica be asked for something in any cluster
that events lead to, whatever the courses of its calls are.

* If it replies with a fault, the cluster is what it would be if the same time had passed
  without the request, apart from what has been counted, and the fault reports a refusal
  that concerns the request.
* If it accepts a write it holds it then, whatever has become of its calls.
* If it replies with a fault after other things have happened meanwhile, the cluster is what
  these would have made of it without the request. -/
theorem untouched_of_fault {c : Cluster} {events : List Event} {t : Timeline} {i : ℕ} {r : Replica}
    (ht : (start c).run events = t) (hr : t.replica? i = some r) (request : Request)
    (courses : List Course) :
    let served := Coordination.dispatch (Coursed.surroundings i r) request ⟨t, courses⟩
    let t' := served.2.time
    (∀ fault, served.1 = .error fault →
      t'.uncounted = (t.wait (t'.now - t.now)).uncounted ∧
      ∃ e, fault = .ofRefusal e ∧ e.Concerns request) ∧
    (∀ key context value response, request = .put key context value →
      served.1 = .ok response →
      ∃ r', t'.cluster.replicas[i]? = some r' ∧
        ⟨context.increment r.id, value⟩ ∈ r'.store.versions key) ∧
    ∀ calls,
      let served := Coordination.dispatch (Busy.surroundings i r) request ⟨t.cluster, calls, []⟩
      ∀ fault, served.1 = .error fault →
        served.2.cluster.uncounted = (t.cluster.run served.2.past).uncounted ∧
        ∃ e, fault = .ofRefusal e ∧ e.Concerns request := by
  have horderly : t.Orderly := ht ▸ orderly_run c events
  refine ⟨fun fault hfault => ⟨Coursed.eq_wait_of_fault horderly hfault, ?_⟩, ?_,
    fun calls fault hfault => ⟨Busy.eq_run_of_fault hfault, ?_⟩⟩
  · obtain ⟨e, -, hconcerns⟩ := Coordination.dispatch_eq_error hfault
    exact ⟨e, hconcerns⟩
  · rintro key context value response rfl hresponse
    have hri : t.cluster.replicas[i]? = some r := by
      rw [replica?] at hr
      split at hr
      · cases hr
      · exact hr
    obtain ⟨versions, hmem, r', hr', rfl⟩ := Coursed.holds_of_dispatch horderly hri hresponse
    exact ⟨r', hr', hmem⟩
  · obtain ⟨e, -, hconcerns⟩ := Coordination.dispatch_eq_error hfault
    exact ⟨e, hconcerns⟩

/-- A replica turns in vain to a peer that has been put out of service.  A read of a key that
it does not hold leaves what the wait leaves, in which the peer comes back; a write is held.
Where the peer has come back and taken a write meanwhile, a read leaves just that. -/
theorem untouched_of_fault_pair :
    let r := (Replica.new ⟨"localhost", 8000⟩ "n1" ⟨2, 2⟩ 500).assignList
      [⟨"localhost", 8000⟩, ⟨"localhost", 8001⟩]
    let t := (start (.pair ⟨2, 2⟩)).run [.request 1 (.crash 1) [], .passage 600]
    let lost : Course := .lost 500 (.timeout "localhost:8001")
    let read := Coordination.dispatch (Coursed.surroundings 0 r) (.get "k") ⟨t, [lost]⟩
    let write := Coordination.dispatch (Coursed.surroundings 0 r) (.put "k" (.ofPairs []) [1])
      ⟨t, [lost]⟩
    let meanwhile : List Cluster.Event := [.recovery 1, .request 1 (.put "l" (.ofPairs []) [2]) []]
    let busy := Coordination.dispatch (Busy.surroundings 0 r) (.get "k")
      ⟨t.cluster, [⟨meanwhile, .lost .closed, []⟩], []⟩
    read.1 = .error .notFound ∧ read.2.time.uncounted = (t.wait 500).uncounted ∧
      (t.replica? 1).map (fun q => q.outage.down) = some true ∧
      (read.2.time.replica? 1).map (fun q => q.outage.down) = some false ∧
      write.1 = .ok (.put true) ∧
      (∃ q, write.2.time.cluster.replicas[0]? = some q ∧
        ⟨.ofPairs [("n1", 1)], [1]⟩ ∈ q.store.versions "k") ∧
      busy.1 = .error .notFound ∧
      busy.2.cluster.uncounted = (t.cluster.run meanwhile).uncounted := by
  intro r t lost read write meanwhile busy
  have hr : t.replica? 0 = some r := rfl
  have hread : read.1 = .error .notFound := rfl
  have hwrite : write.1 = .ok (.put true) := rfl
  have hbusy : busy.1 = .error .notFound := rfl
  obtain ⟨hleft, -, hmeanwhile⟩ := untouched_of_fault rfl hr (.get "k") [lost]
  obtain ⟨-, hheld, -⟩ := untouched_of_fault rfl hr (.put "k" (.ofPairs []) [1]) [lost]
  have htime : read.2.time.now - t.now = 500 := by decide +kernel
  have hpast : busy.2.past = meanwhile := rfl
  refine ⟨hread, ?_, by decide +kernel, by decide +kernel, hwrite,
    hheld "k" _ [1] _ rfl hwrite, hbusy, ?_⟩
  · rw [← htime]
    exact (hleft _ hread).1
  · rw [← hpast]
    exact (hmeanwhile _ _ hbusy).1

end Timeline

end QuorumStore
