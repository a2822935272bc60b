/-
What happens to one key does not depend on the others.

* `Store.get?_absorbEach_congr`: what a store absorbs of other keys does not matter;
* `Coordination.walk_congr`: a walk goes the same way in two states that calls cannot tell
  apart;
* `Cluster.act_congr`: replicas that agree on a key answer alike what is about the key, and
  agree on it afterwards;
* `Cluster.run_restrict`: so all that is about other keys can be left out of a run.
-/
import QuorumStore.Cluster.History
import QuorumStore.Proofs.Requests

namespace QuorumStore

/-- An answer, and what a view shows of the state after it. -/
def viewed {α σ τ : Type} (view : σ → τ) (x : α × σ) : α × τ :=
  (x.1, view x.2)

/-! ### Stores -/

/-- Two maps have the same part at a key if they read the same there. -/
lemma KeyMap.filterKeys_eq_iff {α : Type} {m m' : KeyMap α} {key : String} :
    m.filterKeys (· = key) = m'.filterKeys (· = key) ↔ m.get? key = m'.get? key := by
  constructor
  · intro h
    have hget := congrArg (·.get? key) h
    simpa [KeyMap.get?_filterKeys] using hget
  · intro h
    refine KeyMap.ext_get? fun k => ?_
    rw [KeyMap.get?_filterKeys, KeyMap.get?_filterKeys]
    by_cases hk : k = key
    · rw [hk, h]
    · simp [hk]

namespace Store

variable {s s' : Store} {key k : String} {incoming : Siblings}
variable {pairs pairs' : List (String × Siblings)}

lemma versions_congr (h : s.get? key = s'.get? key) : s.versions key = s'.versions key := by
  rw [versions, versions, h]

lemma get?_absorb_of_ne (hk : k ≠ key) : (s.absorb k incoming).2.get? key = s.get? key := by
  by_cases hchanged : ((s.versions k).merge incoming).changed = true
  · rw [snd_absorb_of_changed hchanged, KeyMap.get?_insert, if_neg hk]
  · rw [snd_absorb_of_not_changed hchanged]

/-- What a store makes of versions of a key depends on what it holds of the key. -/
lemma absorb_congr (h : s.get? key = s'.get? key) (incoming : Siblings) :
    (s.absorb key incoming).1 = (s'.absorb key incoming).1 ∧
      (s.absorb key incoming).2.get? key = (s'.absorb key incoming).2.get? key := by
  have hversions := versions_congr h
  refine ⟨by rw [absorb, absorb, hversions], ?_⟩
  by_cases hchanged : ((s.versions key).merge incoming).changed = true
  · rw [snd_absorb_of_changed hchanged, snd_absorb_of_changed (hversions ▸ hchanged),
      KeyMap.get?_insert, KeyMap.get?_insert, if_pos rfl, if_pos rfl, hversions]
  · rw [snd_absorb_of_not_changed hchanged, snd_absorb_of_not_changed (hversions ▸ hchanged), h]

/-- Versions of other keys do not matter for a key. -/
lemma get?_absorbEach_filter (h : s.get? key = s'.get? key) :
    (s.absorbEach pairs).2.get? key =
      (s'.absorbEach (pairs.filter fun p => p.1 = key)).2.get? key := by
  induction pairs generalizing s s' with
  | nil => exact h
  | cons p rest ih =>
    rw [snd_absorbEach_cons]
    by_cases hk : p.1 = key
    · rw [List.filter_cons_of_pos (by simpa using hk), snd_absorbEach_cons]
      refine ih ?_
      rw [hk]
      exact (absorb_congr h p.2).2
    · rw [List.filter_cons_of_neg (by simpa using hk)]
      exact ih ((get?_absorb_of_ne hk).trans h)

lemma get?_absorbEach_congr (h : s.get? key = s'.get? key)
    (hpairs : pairs.filter (fun p => p.1 = key) = pairs'.filter fun p => p.1 = key) :
    (s.absorbEach pairs).2.get? key = (s'.absorbEach pairs').2.get? key := by
  rw [get?_absorbEach_filter h, hpairs, ← get?_absorbEach_filter rfl]

end Store

/-! ### Replicas -/

namespace Replica

variable {r r' : Replica} {key k : String} {versions : Siblings}

/-- What of a replica has to do with a key.  Replicas agree on the key if this is equal. -/
def onKey (key : String) (r : Replica) : Replica :=
  { r with store := r.store.filterKeys (· = key), tally := .zero }

lemma get?_of_onKey_eq (h : r.onKey key = r'.onKey key) :
    r.store.get? key = r'.store.get? key :=
  KeyMap.filterKeys_eq_iff.mp (congrArg Replica.store h)

lemma down_of_onKey_eq (h : r.onKey key = r'.onKey key) : r.outage.down = r'.outage.down :=
  (congrArg (fun q => q.outage.down) h :)

/-- Replicas that agree on a key do so with other stores that agree, whatever they count. -/
lemma onKey_congr {store store' : Store} {tally tally' : Tally} (h : r.onKey key = r'.onKey key)
    (hstore : store.get? key = store'.get? key) :
    { r with store, tally }.onKey key
      = { r' with store := store', tally := tally' }.onKey key := by
  have hpart := KeyMap.filterKeys_eq_iff.mpr hstore
  simp only [onKey, mk.injEq] at h ⊢
  simp [h, hpart]

lemma onKey_countFailure (method : Method) (e : CallError) (r : Replica) :
    (r.countFailure method e).onKey key = r.onKey key := rfl

lemma replicate_congr (h : r.onKey key = r'.onKey key) (versions : Siblings) :
    viewed (onKey key) (r.replicate key versions)
      = viewed (onKey key) (r'.replicate key versions) := by
  rw [replicate_eq, replicate_eq, down_of_onKey_eq h]
  split
  · exact Prod.ext rfl h
  · obtain ⟨hmerge, hstore⟩ := Store.absorb_congr (get?_of_onKey_eq h) versions
    simp only [viewed, Prod.mk.injEq, hmerge, true_and]
    exact onKey_congr h hstore

lemma onKey_replicate_of_ne (hk : k ≠ key) :
    (r.replicate k versions).2.onKey key = r.onKey key := by
  rw [replicate_eq]
  split
  · rfl
  · exact onKey_congr rfl (Store.get?_absorb_of_ne hk)

lemma fetch_congr (h : r.onKey key = r'.onKey key) : r.fetch key = r'.fetch key := by
  rw [fetch_eq, fetch_eq, down_of_onKey_eq h, get?_of_onKey_eq h]

lemma absorb_congr {pushed pushed' : Store} (h : r.onKey key = r'.onKey key)
    (hpushed : pushed.filterKeys (· = key) = pushed'.filterKeys (· = key)) :
    viewed (onKey key) (r.absorb pushed) = viewed (onKey key) (r'.absorb pushed') := by
  rw [absorb_eq, absorb_eq, down_of_onKey_eq h]
  split
  · exact Prod.ext rfl h
  · simp only [viewed, Prod.mk.injEq, true_and]
    exact onKey_congr h
      (Store.get?_absorbEach_congr (get?_of_onKey_eq h) (congrArg KeyMap.entries hpushed))

lemma write_congr (h : r.onKey key = r'.onKey key) (context : Clock) (value : Bytes) :
    (r.write key context value).map (viewed (onKey key))
      = (r'.write key context value).map (viewed (onKey key)) := by
  have hclock : context.increment r.id = context.increment r'.id :=
    (congrArg (fun q => context.increment q.id) h :)
  obtain ⟨hmerge, hstore⟩ := Store.absorb_congr (get?_of_onKey_eq h)
    [⟨context.increment r'.id, value⟩]
  rw [write_eq, write_eq, down_of_onKey_eq h, hclock]
  split
  · rfl
  · simp only [hmerge]
    split
    · simp only [Except.map, viewed, Except.ok.injEq, Prod.mk.injEq, true_and]
      exact onKey_congr h hstore
    · rfl

lemma onKey_of_write {context : Clock} {value : Bytes} {merged : Siblings} (hk : k ≠ key)
    (h : r.write k context value = .ok (merged, r')) : r'.onKey key = r.onKey key := by
  obtain ⟨-, -, rfl⟩ := write_eq_ok h
  exact onKey_congr rfl (Store.get?_absorb_of_ne hk)

end Replica

/-! ### Clusters -/

namespace Cluster

variable {c c' : Cluster} {key : String} {i : ℕ}

/-- What of a cluster has to do with a key. -/
def onKey (key : String) (c : Cluster) : Cluster :=
  { c with replicas := c.replicas.map (Replica.onKey key) }

lemma onKey_eq_iff : c.onKey key = c'.onKey key ↔
    (∀ i : ℕ, c.replicas[i]?.map (Replica.onKey key) = c'.replicas[i]?.map (Replica.onKey key)) ∧
      c.directory = c'.directory := by
  simp only [onKey, mk.injEq]
  refine and_congr_left fun _ => ⟨fun h i => ?_, fun h => List.ext_getElem? fun i => ?_⟩
  · rw [← List.getElem?_map, h, List.getElem?_map]
  · rw [List.getElem?_map, List.getElem?_map, h i]

lemma serveFetch_congr {r r' : Replica} (h : r.onKey key = r'.onKey key) :
    viewed (Replica.onKey key) (serveFetch key r)
      = viewed (Replica.onKey key) (serveFetch key r') :=
  Prod.ext (Replica.fetch_congr h) h

/-- In clusters that agree on a key the replicas with an index do. -/
lemma onKey_getElem?_cases (h : c.onKey key = c'.onKey key) (i : ℕ) :
    (c.replicas[i]? = none ∧ c'.replicas[i]? = none) ∨
      ∃ r r', c.replicas[i]? = some r ∧ c'.replicas[i]? = some r' ∧
        r.onKey key = r'.onKey key := by
  have hi := (onKey_eq_iff.mp h).1 i
  cases hr : c.replicas[i]? with
  | none =>
    rw [hr] at hi
    exact .inl ⟨rfl, Option.map_eq_none_iff.mp hi.symm⟩
  | some r =>
    rw [hr] at hi
    obtain ⟨r', hr', heq⟩ := Option.map_eq_some_iff.mp hi.symm
    exact .inr ⟨r, r', rfl, hr', heq.symm⟩

lemma whoAnswers?_congr (h : c.onKey key = c'.onKey key) (e : Endpoint) :
    c.whoAnswers? e = c'.whoAnswers? e := by
  rw [whoAnswers?, whoAnswers?, (onKey_eq_iff.mp h).2]

lemma onKey_set_congr {r r' : Replica} (h : c.onKey key = c'.onKey key)
    (hr : r.onKey key = r'.onKey key) : (c.set i r).onKey key = (c'.set i r').onKey key := by
  simp only [onKey, set, mk.injEq, List.map_set] at h ⊢
  rw [h.1, hr]
  exact ⟨rfl, h.2⟩

lemma onKey_modify_congr {f f' : Replica → Replica} (h : c.onKey key = c'.onKey key)
    (hf : ∀ r r', c.replicas[i]? = some r → c'.replicas[i]? = some r' →
      r.onKey key = r'.onKey key → (f r).onKey key = (f' r').onKey key) :
    (c.modify i f).onKey key = (c'.modify i f').onKey key := by
  refine onKey_eq_iff.mpr ⟨fun j => ?_, (onKey_eq_iff.mp h).2⟩
  simp only [modify, List.getElem?_modify]
  rcases onKey_getElem?_cases h j with ⟨hr, hr'⟩ | ⟨r, r', hr, hr', heq⟩
  · rw [hr, hr']
    rfl
  · rw [hr, hr']
    by_cases hij : i = j
    · subst hij
      simpa using hf r r' hr hr' heq
    · simpa [hij] using heq

lemma onKey_modify {f : Replica → Replica}
    (hf : ∀ r, c.replicas[i]? = some r → (f r).onKey key = r.onKey key) :
    (c.modify i f).onKey key = c.onKey key := by
  refine onKey_eq_iff.mpr ⟨fun j => ?_, rfl⟩
  simp only [modify, List.getElem?_modify]
  cases hr : c.replicas[j]? with
  | none => rfl
  | some r =>
    by_cases hij : i = j
    · subst hij
      simpa using hf r hr
    · simp [hij]

/-- A call about a key is answered alike in clusters that agree on the key. -/
lemma deliver_congr {α : Type} {serve serve' : Replica → Except Refusal α × Replica}
    (hserve : ∀ r r', r.onKey key = r'.onKey key →
      viewed (Replica.onKey key) (serve r) = viewed (Replica.onKey key) (serve' r'))
    (h : c.onKey key = c'.onKey key) (e : Endpoint) :
    viewed (onKey key) (c.deliver e serve) = viewed (onKey key) (c'.deliver e serve') := by
  rw [deliver, deliver, whoAnswers?_congr h e]
  split
  · exact Prod.ext rfl h
  · rename_i i _
    rcases onKey_getElem?_cases h i with ⟨hr, hr'⟩ | ⟨r, r', hr, hr', heq⟩
    · rw [hr, hr']
      exact Prod.ext rfl h
    · rw [hr, hr']
      obtain ⟨hanswer, hreplica⟩ := Prod.mk.inj (hserve r r' heq)
      simp only [viewed, Prod.mk.injEq, hanswer, true_and]
      exact onKey_set_congr h hreplica

/-- A call about another key leaves all as it is. -/
lemma onKey_deliver {α : Type} {serve : Replica → Except Refusal α × Replica}
    (hserve : ∀ r, (serve r).2.onKey key = r.onKey key) (e : Endpoint) :
    (c.deliver e serve).2.onKey key = c.onKey key := by
  rw [deliver]
  split
  · rfl
  · split
    · rfl
    · rename_i r hr
      refine (onKey_set_congr rfl (hserve r)).trans ?_
      rw [set, set_of_getElem? hr]

end Cluster

/-! ### Walks -/

namespace Coordination

variable {σ τ α β : Type} {view : σ → τ} {method : Method}
variable {ask ask' : Endpoint → σ → Except CallError α × σ} {env env' : Surroundings σ} {s s' : σ}

/-- In two states that a view shows alike a call and the counting of its failure go the same
way if the calls do. -/
lemma counted_congr
    (hask : ∀ e {s s'}, view s = view s' → viewed view (ask e s) = viewed view (ask' e s'))
    (hcount : ∀ cause {s s'}, view s = view s' →
      view (env.update (·.countFailure method cause) s)
        = view (env'.update (·.countFailure method cause) s'))
    (e : Endpoint) (h : view s = view s') :
    viewed view (counted env method ask e s) = viewed view (counted env' method ask' e s') := by
  obtain ⟨hanswer, hview⟩ := Prod.mk.inj (hask e h)
  rw [counted, counted]
  generalize ask e s = call, ask' e s' = call' at hanswer hview
  obtain ⟨answer, u⟩ := call
  obtain ⟨answer', u'⟩ := call'
  cases hanswer
  cases answer with
  | ok a => exact Prod.ext rfl hview
  | error cause => exact Prod.ext rfl (hcount cause hview)

/-- And so does a walk. -/
lemma walk_congr
    (hask : ∀ e {s s'}, view s = view s' → viewed view (ask e s) = viewed view (ask' e s'))
    (enough : β → Bool) (add : β → α → β) (peers : List Endpoint) (b : β)
    (h : view s = view s') :
    viewed view (walk ask enough add peers b s)
      = viewed view (walk ask' enough add peers b s') := by
  induction peers generalizing b s s' with
  | nil => exact Prod.ext rfl h
  | cons e rest ih =>
    obtain ⟨hanswer, hview⟩ := Prod.mk.inj (hask e h)
    rw [walk, walk]
    generalize ask e s = call, ask' e s' = call' at hanswer hview
    obtain ⟨answer, u⟩ := call
    obtain ⟨answer', u'⟩ := call'
    cases hanswer
    split
    · exact Prod.ext rfl h
    · cases answer with
      | ok a => exact ih _ hview
      | error cause => exact ih _ hview

end Coordination

/-! ### Requests -/

namespace Fated

variable {f f' : Fated} {r r' : Replica} {key k : String} {i : ℕ} {method : Method}

/-- What of a cluster has to do with a key, with the fates of the calls to come. -/
def onKey (key : String) (f : Fated) : Fated :=
  { f with cluster := f.cluster.onKey key }

lemma cluster_of_onKey_eq (h : f.onKey key = f'.onKey key) :
    f.cluster.onKey key = f'.cluster.onKey key :=
  congrArg Fated.cluster h

/-- The serving replicas agree on a key if the clusters do. -/
lemma onKey_self_congr (hr : r.onKey key = r'.onKey key) (h : f.onKey key = f'.onKey key) :
    ((surroundings i r).self f).onKey key = ((surroundings i r').self f').onKey key := by
  simp only [surroundings]
  rcases Cluster.onKey_getElem?_cases (cluster_of_onKey_eq h) i with
    ⟨hq, hq'⟩ | ⟨q, q', hq, hq', heq⟩
  · rw [hq, hq']
    exact hr
  · rw [hq, hq']
    exact heq

lemma onKey_update_congr {change change' : Replica → Replica} (r r' : Replica)
    (h : f.onKey key = f'.onKey key)
    (hchange : ∀ q q', q.onKey key = q'.onKey key → (change q).onKey key = (change' q').onKey key) :
    ((surroundings i r).update change f).onKey key
      = ((surroundings i r').update change' f').onKey key := by
  simp only [surroundings, onKey, Fated.mk.injEq] at h ⊢
  exact ⟨Cluster.onKey_modify_congr h.1 fun q q' _ _ => hchange q q', h.2⟩

/-- Putting a replica that agrees with the serving one in its place changes nothing. -/
lemma onKey_update_self {q : Replica} (hq : q.onKey key = ((surroundings i r).self f).onKey key) :
    ((surroundings i r).update (fun _ => q) f).onKey key = f.onKey key := by
  simp only [surroundings, onKey, Fated.mk.injEq, and_true] at hq ⊢
  refine Cluster.onKey_modify fun p hp => ?_
  rwa [hp] at hq

/-- A call about a key goes the same way in clusters that agree on the key. -/
lemma exchange_congr {α : Type} {serve serve' : Replica → Except Refusal α × Replica}
    (hserve : ∀ r r', r.onKey key = r'.onKey key →
      viewed (Replica.onKey key) (serve r) = viewed (Replica.onKey key) (serve' r'))
    (e : Endpoint) (h : f.onKey key = f'.onKey key) :
    viewed (onKey key) (exchange e serve f) = viewed (onKey key) (exchange e serve' f') := by
  obtain ⟨hcluster, hfates⟩ := Fated.mk.inj h
  have hfates : f.fates = f'.fates := hfates
  obtain ⟨hanswer, hdeliver⟩ := Prod.mk.inj (Cluster.deliver_congr hserve hcluster e)
  rw [exchange, exchange, hfates]
  split
  · simp only [viewed, onKey, hanswer, hdeliver]
  · simp only [viewed, onKey, hcluster]
  · simp only [viewed, onKey, hdeliver]

/-- A walk that makes calls about a key goes the same way in clusters that agree on it. -/
lemma walk_congr {α β : Type} (i : ℕ) (r r' : Replica) (method : Method)
    {serve serve' : Replica → Except Refusal α × Replica}
    (hserve : ∀ r r', r.onKey key = r'.onKey key →
      viewed (Replica.onKey key) (serve r) = viewed (Replica.onKey key) (serve' r'))
    (enough : β → Bool) (add : β → α → β) (peers : List Endpoint) (b : β)
    (h : f.onKey key = f'.onKey key) :
    viewed (onKey key) (Coordination.walk (Coordination.counted (surroundings i r) method
        fun e => exchange e serve) enough add peers b f)
      = viewed (onKey key) (Coordination.walk (Coordination.counted (surroundings i r') method
        fun e => exchange e serve') enough add peers b f') := by
  refine Coordination.walk_congr (fun e _ _ h => ?_) enough add peers b h
  refine Coordination.counted_congr (fun e _ _ h => exchange_congr hserve e h)
    (fun cause _ _ h => ?_) e h
  exact onKey_update_congr r r' h fun q q' heq => heq

/-- A walk that makes calls about another key leaves all as it is. -/
lemma onKey_walk {α β : Type} (serve : Replica → Except Refusal α × Replica)
    (hserve : ∀ r, (serve r).2.onKey key = r.onKey key)
    (enough : β → Bool) (add : β → α → β) (peers : List Endpoint) (b : β) (f : Fated) :
    (Coordination.walk (Coordination.counted (surroundings i r) method
      fun e => exchange e serve) enough add peers b f).2.cluster.onKey key
      = f.cluster.onKey key := by
  refine Coordination.walk_rel (R := fun f f' : Fated => f'.cluster.onKey key = f.cluster.onKey key)
    (fun _ => rfl) (fun h h' => h'.trans h) (fun e f => ?_) enough add peers b f
  refine Coordination.counted_rel
    (R := fun f f' : Fated => f'.cluster.onKey key = f.cluster.onKey key)
    (fun h h' => h'.trans h) (fun e f => ?_) (fun cause f => ?_) e f
  · rw [exchange]
    split
    · exact Cluster.onKey_deliver hserve e
    · rfl
    · exact Cluster.onKey_deliver hserve e
  · exact Cluster.onKey_modify fun q _ => Replica.onKey_countFailure _ _ q

end Fated

/-- The key that a request is about, if it is about a single one. -/
def Request.key? : Request → Option String
  | .put key _ _ => some key
  | .get key => some key
  | .replicate key _ => some key
  | .fetch key => some key
  | _ => none

/-- What of a request has to do with a key: nothing if it is about another one. -/
def Request.restrict (key : String) (request : Request) : Option Request :=
  match request with
  | .absorb pushed => some (.absorb (pushed.filterKeys (· = key)))
  | request => if request.key?.all (· = key) then some request else none

/-- What is about a key stays as it is if it is about this key. -/
lemma Request.restrict_eq_some {key k : String} {request request' : Request}
    (hkey : request.key? = some k) (h : request.restrict key = some request') :
    k = key ∧ request' = request := by
  cases request with
  | absorb pushed => cases hkey
  | _ =>
    simp only [restrict, hkey, Option.all_some] at h
    split at h
    · rename_i hk
      exact ⟨by simpa using hk, (Option.some.inj h).symm⟩
    · cases h

/-- What is left out is about another key. -/
lemma Request.ne_of_restrict_eq_none {key k : String} {request : Request}
    (hkey : request.key? = some k) (h : request.restrict key = none) : k ≠ key := by
  cases request with
  | absorb pushed => cases hkey
  | _ =>
    simp only [restrict, hkey, Option.all_some] at h
    split at h
    · cases h
    · rename_i hk
      simpa using hk

namespace Fated

variable {f f' : Fated} {r r' : Replica} {key : String} {i : ℕ} {request request' : Request}

/-- What the answer to a request says of the outcome does not matter for what agrees. -/
lemma viewed_map {α β : Type} {x x' : Except Refusal α × Fated} (g : α → β)
    (h : viewed (onKey key) x = viewed (onKey key) x') :
    viewed (onKey key) (x.1.map g, x.2) = viewed (onKey key) (x'.1.map g, x'.2) := by
  obtain ⟨hanswer, hview⟩ := Prod.mk.inj h
  exact Prod.ext (congrArg (Except.map g) hanswer) hview

lemma put_congr {context : Clock} {value : Bytes} (hr : r.onKey key = r'.onKey key)
    (h : f.onKey key = f'.onKey key) :
    viewed (onKey key) (Coordination.put (surroundings i r) key context value f)
      = viewed (onKey key) (Coordination.put (surroundings i r') key context value f') := by
  have hself := onKey_self_congr (i := i) hr h
  have hwrite := Replica.write_congr hself context value
  have hquorum : ((surroundings i r).self f).quorum.write
      = ((surroundings i r').self f').quorum.write :=
    (congrArg (fun q => q.quorum.write) hself :)
  have hpeers : ((surroundings i r).self f).peers = ((surroundings i r').self f').peers :=
    (congrArg Replica.peers hself :)
  rw [Coordination.put, Coordination.put]
  simp only [hquorum, hpeers]
  generalize ((surroundings i r).self f).write key context value = written,
    ((surroundings i r').self f').write key context value = written' at hwrite
  cases written with
  | error e =>
    cases written' with
    | error e' =>
      cases hwrite
      exact Prod.ext rfl h
    | ok accepted' => cases hwrite
  | ok accepted =>
    cases written' with
    | error e' => cases hwrite
    | ok accepted' =>
      obtain ⟨merged, q⟩ := accepted
      obtain ⟨merged', q'⟩ := accepted'
      obtain ⟨rfl, hq⟩ := Prod.mk.inj (Except.ok.inj hwrite)
      have hupdate : Fated.onKey key ((surroundings i r).update (fun _ => q) f)
          = Fated.onKey key ((surroundings i r').update (fun _ => q') f') :=
        onKey_update_congr r r' h fun _ _ _ => hq
      obtain ⟨hacks, hview⟩ := Prod.mk.inj (walk_congr i r r'
        .replicate (fun _ _ heq => Replica.replicate_congr heq merged)
        (fun acks => ((surroundings i r').self f').quorum.write ≤ acks) (fun acks _ => acks + 1)
        ((surroundings i r').self f').peers 1 hupdate)
      exact Prod.ext (congrArg (fun acks => Except.ok (Receipt.mk acks _)) hacks) hview

lemma get_congr (hr : r.onKey key = r'.onKey key) (h : f.onKey key = f'.onKey key) :
    viewed (onKey key) (Coordination.get (surroundings i r) key f)
      = viewed (onKey key) (Coordination.get (surroundings i r') key f') := by
  have hself := onKey_self_congr (i := i) hr h
  have havailable : ((surroundings i r).self f).outage.available
      = ((surroundings i r').self f').outage.available :=
    (congrArg (fun q => q.outage.available) hself :)
  have hquorum : ((surroundings i r).self f).quorum.read
      = ((surroundings i r').self f').quorum.read :=
    (congrArg (fun q => q.quorum.read) hself :)
  have hpeers : ((surroundings i r).self f).peers = ((surroundings i r').self f').peers :=
    (congrArg Replica.peers hself :)
  have hversions := Store.versions_congr (Replica.get?_of_onKey_eq hself)
  unfold Coordination.get
  simp only [havailable, hquorum, hpeers, hversions]
  split
  · exact Prod.ext rfl h
  · obtain ⟨hgot, hview⟩ := Prod.mk.inj (walk_congr i r r'
      .fetch (fun _ _ heq => Cluster.serveFetch_congr heq)
      (fun got => ((surroundings i r').self f').quorum.read ≤ got.1)
      (fun got remote => (got.1 + 1, (Siblings.merge got.2 remote).versions))
      ((surroundings i r').self f').peers
      (1, ((surroundings i r').self f').store.versions key) h)
    exact Prod.ext (congrArg (fun got : ℕ × Siblings =>
      if got.2.isEmpty then Except.error (Refusal.notFound key) else .ok got.2) hgot) hview

lemma gossip_congr (hr : r.onKey key = r'.onKey key) (h : f.onKey key = f'.onKey key) :
    viewed (onKey key) (Coordination.gossip (surroundings i r) f)
      = viewed (onKey key) (Coordination.gossip (surroundings i r') f') := by
  have hself := onKey_self_congr (i := i) hr h
  have havailable : ((surroundings i r).self f).outage.available
      = ((surroundings i r').self f').outage.available :=
    (congrArg (fun q => q.outage.available) hself :)
  have hpeers : ((surroundings i r).self f).peers = ((surroundings i r').self f').peers :=
    (congrArg Replica.peers hself :)
  have hpushed : ((surroundings i r).self f).store.filterKeys (· = key)
      = ((surroundings i r').self f').store.filterKeys (· = key) := congrArg Replica.store hself
  rw [Coordination.gossip, Coordination.gossip]
  simp only [havailable, hpeers]
  split
  · exact Prod.ext rfl h
  · obtain ⟨hreached, hview⟩ := Prod.mk.inj (walk_congr i r r'
      .absorb (fun _ _ heq => Replica.absorb_congr heq hpushed) (fun _ => false)
      (fun reached _ => reached + 1) ((surroundings i r').self f').peers 0 h)
    exact Prod.ext (congrArg Except.ok hreached) hview

lemma crash_congr (hr : r.onKey key = r'.onKey key) (h : f.onKey key = f'.onKey key)
    (seconds : UInt64) :
    viewed (onKey key) (Coordination.crash (surroundings i r) seconds f)
      = viewed (onKey key) (Coordination.crash (surroundings i r') seconds f') := by
  have hself := onKey_self_congr (i := i) hr h
  have hstart : ((surroundings i r).self f).outage.start ((surroundings i r).now f)
        (seconds.toNat * 1000)
      = ((surroundings i r').self f').outage.start ((surroundings i r').now f')
        (seconds.toNat * 1000) :=
    (congrArg (fun q => q.outage.start 0 (seconds.toNat * 1000)) hself :)
  rw [Coordination.crash, Coordination.crash, Coordination.crashFor, Coordination.crashFor, hstart]
  split
  · exact Prod.ext rfl h
  · rename_i o _
    exact Prod.ext rfl (onKey_update_congr (i := i) r r' h fun q q' heq =>
      (congrArg (fun q => { q with outage := o }) heq :))

/-- **What is about a key.**  In clusters that agree on a key a request is answered alike if
what it has to do with the key is the same, and they agree on the key afterwards. -/
theorem perform_congr (hrequest : request.restrict key = some request')
    (hr : r.onKey key = r'.onKey key) (h : f.onKey key = f'.onKey key) :
    viewed (onKey key) (Coordination.perform (surroundings i r) request f)
      = viewed (onKey key) (Coordination.perform (surroundings i r') request' f') := by
  have hself := onKey_self_congr (i := i) hr h
  cases request with
  | put k context value =>
    obtain ⟨rfl, rfl⟩ := Request.restrict_eq_some rfl hrequest
    exact viewed_map Coordination.Outcome.put (put_congr hr h)
  | get k =>
    obtain ⟨rfl, rfl⟩ := Request.restrict_eq_some rfl hrequest
    exact viewed_map Coordination.Outcome.get (get_congr hr h)
  | replicate k versions =>
    obtain ⟨rfl, rfl⟩ := Request.restrict_eq_some rfl hrequest
    obtain ⟨hanswer, hreplica⟩ := Prod.mk.inj (Replica.replicate_congr hself versions)
    exact Prod.ext (congrArg (Except.map Coordination.Outcome.replicate) hanswer)
      (onKey_update_congr r r' h fun _ _ _ => hreplica)
  | fetch k =>
    obtain ⟨rfl, rfl⟩ := Request.restrict_eq_some rfl hrequest
    exact Prod.ext
      (congrArg (Except.map Coordination.Outcome.fetch) (Replica.fetch_congr hself)) h
  | absorb pushed =>
    cases hrequest
    have hpushed : pushed.filterKeys (· = key)
        = (pushed.filterKeys (· = key)).filterKeys (· = key) := by
      refine KeyMap.filterKeys_eq_iff.mpr ?_
      simp [KeyMap.get?_filterKeys]
    obtain ⟨hanswer, hreplica⟩ := Prod.mk.inj (Replica.absorb_congr hself hpushed)
    exact Prod.ext (congrArg (Except.map fun _ => Coordination.Outcome.absorb) hanswer)
      (onKey_update_congr r r' h fun _ _ _ => hreplica)
  | gossip =>
    cases hrequest
    exact viewed_map Coordination.Outcome.gossip (gossip_congr hr h)
  | crash seconds =>
    cases hrequest
    exact viewed_map Coordination.Outcome.crash (crash_congr hr h seconds)
  | assignList list =>
    cases hrequest
    exact Prod.ext rfl (onKey_update_congr r r' h fun _ _ heq =>
      (congrArg (Replica.assignList · list) heq :))

/-- A request that is about another key changes nothing that has to do with the key. -/
theorem onKey_perform (hrequest : request.restrict key = none) (f : Fated) :
    (Coordination.perform (surroundings i r) request f).2.cluster.onKey key
      = f.cluster.onKey key := by
  cases request with
  | put k context value =>
    have hk : k ≠ key := Request.ne_of_restrict_eq_none rfl hrequest
    simp only [Coordination.perform, Coordination.put]
    split
    · rfl
    · rename_i merged q hwrite
      refine (onKey_walk _ (fun _ => Replica.onKey_replicate_of_ne hk) _ _ _ _ _).trans ?_
      exact cluster_of_onKey_eq (onKey_update_self (Replica.onKey_of_write hk hwrite))
  | get k =>
    simp only [Coordination.perform, Coordination.get]
    split
    · rfl
    · exact onKey_walk (Cluster.serveFetch k) (fun _ => rfl) _ _ _ _ _
  | replicate k versions =>
    have hk : k ≠ key := Request.ne_of_restrict_eq_none rfl hrequest
    exact cluster_of_onKey_eq (onKey_update_self (Replica.onKey_replicate_of_ne hk))
  | fetch k => rfl
  | _ => cases hrequest

end Fated

namespace Cluster

variable {c c' : Cluster} {key : String}

/-- What of an event has to do with a key. -/
def Event.restrict (key : String) : Event → Option Event
  | .request i asked fates => (asked.restrict key).map fun asked => .request i asked fates
  | event => some event

/-- The part of a run that has to do with a key. -/
def restrict (key : String) (events : List Event) : List Event :=
  events.filterMap (Event.restrict key)

lemma onKey_attach_congr (h : c.onKey key = c'.onKey key) (i : ℕ) :
    (c.attach i).onKey key = (c'.attach i).onKey key := by
  obtain ⟨hreplicas, hdirectory⟩ := mk.inj h
  have hdirectory : c.directory = c'.directory := hdirectory
  rw [attach, attach]
  rcases onKey_getElem?_cases h i with ⟨hr, hr'⟩ | ⟨r, r', hr, hr', heq⟩
  · rw [hr, hr']
    exact h
  · have hendpoint : r.endpoint = r'.endpoint := (congrArg Replica.endpoint heq :)
    rw [hr, hr']
    simp only [onKey, detach, mk.injEq, hendpoint, hdirectory, and_true]
    exact hreplicas

lemma onKey_detach_congr (h : c.onKey key = c'.onKey key) (e : Endpoint) :
    (c.detach e).onKey key = (c'.detach e).onKey key :=
  (congrArg (detach · e) h :)

/-- An event comes to the same in clusters that agree on a key, if what it has to do with the
key is the same. -/
theorem act_congr {event event' : Event} (hevent : event.restrict key = some event')
    (h : c.onKey key = c'.onKey key) :
    viewed (onKey key) (c.act event) = viewed (onKey key) (c'.act event') := by
  cases event with
  | request i request fates =>
    obtain ⟨request', hrequest, rfl⟩ := Option.map_eq_some_iff.mp hevent
    rw [act, act]
    rcases onKey_getElem?_cases h i with ⟨hr, hr'⟩ | ⟨r, r', hr, hr', heq⟩
    · rw [hr, hr']
      exact Prod.ext rfl h
    · rw [hr, hr']
      have hfated : Fated.onKey key ⟨c, fates⟩ = Fated.onKey key ⟨c', fates⟩ :=
        congrArg (Fated.mk · fates) h
      obtain ⟨hanswer, hview⟩ := Prod.mk.inj (Fated.perform_congr (i := i) hrequest heq hfated)
      exact Prod.ext (congrArg some hanswer) (Fated.cluster_of_onKey_eq hview)
  | recovery i =>
    cases hevent
    exact Prod.ext rfl (onKey_modify_congr h fun q q' _ _ heq =>
      (congrArg (fun q => { q with outage := q.outage.expire q.outage.episode }) heq :))
  | detachment i =>
    cases hevent
    rw [act, act]
    rcases onKey_getElem?_cases h i with ⟨hr, hr'⟩ | ⟨r, r', hr, hr', heq⟩
    · rw [hr, hr']
      exact Prod.ext rfl h
    · have hendpoint : r.endpoint = r'.endpoint := (congrArg Replica.endpoint heq :)
      rw [hr, hr']
      simp only [hendpoint]
      exact Prod.ext rfl (onKey_detach_congr h _)
  | attachment i =>
    cases hevent
    exact Prod.ext rfl (onKey_attach_congr h i)

/-- An event that is about another key changes nothing that has to do with the key. -/
theorem onKey_act {event : Event} (hevent : event.restrict key = none) (c : Cluster) :
    (c.act event).2.onKey key = c.onKey key := by
  cases event with
  | request i request fates =>
    rw [act]
    split
    · rfl
    · exact Fated.onKey_perform (Option.map_eq_none_iff.mp hevent) ⟨c, fates⟩
  | _ => cases hevent

/-- What is about other keys can be left out of a run. -/
lemma onKey_run (h : c.onKey key = c'.onKey key) (events : List Event) :
    (c.run events).onKey key = (c'.run (restrict key events)).onKey key := by
  induction events generalizing c c' with
  | nil => exact h
  | cons event rest ih =>
    cases hevent : event.restrict key with
    | none =>
      rw [restrict, List.filterMap_cons_none hevent]
      exact ih ((onKey_act hevent c).trans h)
    | some event' =>
      rw [restrict, List.filterMap_cons_some hevent]
      exact ih (Prod.mk.inj (act_congr hevent h)).2

/-- **Keys are independent.**  Let any events happen to a cluster, and let only what has to
do with one key happen to it: leave out the reads, writes and messages that are about
another key, and the other keys of the stores that are merged.

* Every replica holds the same versions of the key.
* What is asked of a replica then, and has to do with the key, comes to the same.  So does
  a push, and as many peers take it. -/
theorem run_restrict (c : Cluster) (key : String) (events : List Event) :
    (∀ i : ℕ, (c.run events).replicas[i]?.map (fun r => r.store.get? key)
      = (c.run (restrict key events)).replicas[i]?.map fun r => r.store.get? key) ∧
    ∀ event event', Event.restrict key event = some event' →
      ((c.run events).act event).1 = ((c.run (restrict key events)).act event').1 := by
  have hrun : (c.run events).onKey key = (c.run (restrict key events)).onKey key :=
    onKey_run rfl events
  refine ⟨fun i => ?_, fun event event' hevent => (Prod.mk.inj (act_congr hevent hrun)).1⟩
  rcases onKey_getElem?_cases hrun i with ⟨hr, hr'⟩ | ⟨r, r', hr, hr', heq⟩
  · rw [hr, hr']
  · rw [hr, hr']
    exact congrArg some (Replica.get?_of_onKey_eq heq)

/-- Two replicas take writes of two keys while one of them is cut off.  A push of the other
reaches it then, and without the writes of one key as well. -/
theorem run_restrict_pair :
    let c := pair ⟨2, 1⟩
    let write (i : ℕ) (key : String) : Event := .request i (.put key (.ofPairs []) [1]) []
    let push : Event := .request 1 .gossip []
    let events := [write 0 "l", .detachment 0, write 1 "k", write 1 "l", .attachment 0]
    let fewer := [.detachment 0, write 1 "k", .attachment 0]
    restrict "k" events = fewer ∧ push.restrict "k" = some push ∧
      ((c.run events).act push).1 = some (.ok (.gossip 1)) ∧
      ((c.run fewer).act push).1 = some (.ok (.gossip 1)) ∧
      (c.run events).replicas[1]?.map (fun r => r.store.get? "k")
        = (c.run fewer).replicas[1]?.map fun r => r.store.get? "k" := by
  intro c write push events fewer
  have hpush : push.restrict "k" = some push := rfl
  have hevents : restrict "k" events = fewer := rfl
  have hreached : ((c.run events).act push).1 = some (.ok (.gossip 1)) := by decide +kernel
  obtain ⟨hstores, hsame⟩ := run_restrict c "k" events
  rw [hevents] at hstores hsame
  exact ⟨hevents, hpush, hreached, (hsame push push hpush).symm.trans hreached, hstores 1⟩

end Cluster

end QuorumStore
