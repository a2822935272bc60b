/-
How the replicas of a cluster change while operations overlap.

Whatever happens, a replica keeps what identifies it, and its store changes only
by absorbing version sets that were given to it: by a message of a peer, by a
write that it has accepted, or by a request from outside.

* `Traffic.evolves_after`: one move does nothing else to the replicas;
* `Traffic.Reaches.knowsAt`: so what a replica knows of it knows ever after.
-/
import Mathlib.Data.Option.Basic
import QuorumStore.Cluster.Traffic
import QuorumStore.Proofs.Merging

namespace QuorumStore

namespace Except

variable {ε α β : Type} {x : Except ε α} {f : α → β}

lemma exists_of_map_eq_ok {b : β} (h : x.map f = .ok b) : ∃ a, x = .ok a ∧ f a = b := by
  cases x with
  | error e => cases h
  | ok a => exact ⟨a, rfl, Except.ok.inj h⟩

lemma eq_error_of_map_eq_error {e : ε} (h : x.map f = .error e) : x = .error e := by
  cases x with
  | error e' => rw [Except.error.inj h]
  | ok a => cases h

end Except

lemma set_of_getElem? {α : Type} {l : List α} {x : α} {k : ℕ} (h : l[k]? = some x) :
    l.set k x = l := by
  obtain ⟨hlt, rfl⟩ := List.getElem?_eq_some_iff.mp h
  exact List.set_getElem_self hlt

/-! ### Replicas -/

/-- A replica keeps what identifies it and absorbs version sets that were given to
it.  Its preference list stays as well, unless lists are changed. -/
structure Replica.Evolves (Given : String → Siblings → Prop) (Relisted : Prop)
    (r r' : Replica) : Prop where
  endpoint : r'.endpoint = r.endpoint
  id : r'.id = r.id
  quorum : r'.quorum = r.quorum
  list : ¬ Relisted → r'.list = r.list
  store : ∃ pairs, (∀ p ∈ pairs, Given p.1 p.2) ∧ r'.store = (r.store.absorbEach pairs).2

namespace Replica

variable {Given : String → Siblings → Prop} {Relisted : Prop} {r r' r'' : Replica}
variable {key k : String} {versions : Siblings} {c : Clock}

/-- What leaves the store and the preference list alone is an evolution. -/
lemma Evolves.of_eq (hendpoint : r'.endpoint = r.endpoint) (hid : r'.id = r.id)
    (hquorum : r'.quorum = r.quorum) (hlist : ¬ Relisted → r'.list = r.list)
    (hstore : r'.store = r.store) : Evolves Given Relisted r r' :=
  ⟨hendpoint, hid, hquorum, hlist, [], by simp, hstore⟩

lemma Evolves.refl (r : Replica) : Evolves Given Relisted r r :=
  .of_eq rfl rfl rfl (fun _ => rfl) rfl

lemma Evolves.trans (h : Evolves Given Relisted r r') (h' : Evolves Given Relisted r' r'') :
    Evolves Given Relisted r r'' := by
  obtain ⟨pairs, hgiven, hstore⟩ := h.store
  obtain ⟨pairs', hgiven', hstore'⟩ := h'.store
  refine ⟨h'.endpoint.trans h.endpoint, h'.id.trans h.id, h'.quorum.trans h.quorum,
    fun hl => (h'.list hl).trans (h.list hl), pairs ++ pairs', ?_, ?_⟩
  · intro p hp
    exact (List.mem_append.mp hp).elim (hgiven p) (hgiven' p)
  · rw [hstore', hstore, Store.snd_absorbEach_append]

/-- A replica that evolves does not forget. -/
lemma Evolves.knows (h : Evolves Given Relisted r r') (hk : r.store.Knows key c) :
    r'.store.Knows key c := by
  obtain ⟨pairs, -, hstore⟩ := h.store
  rw [hstore]
  exact Store.knows_absorbEach hk

/-- A replica that evolves keeps a property that merges preserve, if all that it
is given has it. -/
lemma Evolves.holds {Good : String → Siblings → Prop} (stable : Siblings.MergeStable Good)
    (h : Evolves Given Relisted r r') (hgood : r.store.Holds Good)
    (hgiven : ∀ key versions, Given key versions → Good key versions) :
    r'.store.Holds Good := by
  obtain ⟨pairs, hpairs, hstore⟩ := h.store
  rw [hstore]
  exact Store.holds_absorbEach stable hgood fun p hp => hgiven _ _ (hpairs p hp)

lemma replicate_eq (r : Replica) (key : String) (versions : Siblings) :
    r.replicate key versions =
      if r.outage.down then (.error .crashed, r)
      else
        let merged := r.store.absorb key versions
        (.ok merged.1.changed, { r with store := merged.2 }) := by
  rw [replicate, Outage.available]
  split <;> split <;> simp_all

lemma absorb_eq (r : Replica) (pushed : Store) :
    r.absorb pushed =
      if r.outage.down then (.error .crashed, r)
      else
        let absorbed := r.store.absorbEach pushed.entries
        (.ok (), { r with
          store := absorbed.2
          tally := { r.tally with accepted := r.tally.accepted + absorbed.1 } }) := by
  rw [absorb, absorbEach, Outage.available]
  split <;> split <;> simp_all

lemma evolves_replicate (h : Given key versions) :
    Evolves Given Relisted r (r.replicate key versions).2 := by
  rw [replicate]
  split
  · exact .refl r
  · exact ⟨rfl, rfl, rfl, fun _ => rfl, [(key, versions)], by simpa using h,
      Store.snd_absorbEach_singleton.symm⟩

lemma evolves_absorb {pushed : Store}
    (h : ∀ key versions, pushed.get? key = some versions → Given key versions) :
    Evolves Given Relisted r (r.absorb pushed).2 := by
  rw [absorb, absorbEach]
  split
  · exact .refl r
  · exact ⟨rfl, rfl, rfl, fun _ => rfl, pushed.entries,
      fun p hp => h p.1 p.2 ((KeyMap.mem_entries_iff pushed).mp hp), rfl⟩

/-- A write is accepted in service if nothing that is held covers its clock. -/
lemma write_eq (r : Replica) (key : String) (context : Clock) (value : Bytes) :
    r.write key context value =
      if r.outage.down then .error .crashed
      else
        let merged := r.store.absorb key [⟨context.increment r.id, value⟩]
        if merged.1.changed then .ok (merged.1.versions, { r with store := merged.2 })
        else .error .stale := by
  rw [write, Outage.available]
  split <;> rfl

/-- What an accepted write does: nothing that the replica holds covers the new
clock, and it merges the new version. -/
lemma write_eq_ok {context : Clock} {value : Bytes} {merged : Siblings}
    (h : r.write key context value = .ok (merged, r')) :
    ¬ r.store.Knows key (context.increment r.id) ∧
      merged = ((r.store.versions key).merge [⟨context.increment r.id, value⟩]).versions ∧
      r' = { r with
        store := (r.store.absorb key [⟨context.increment r.id, value⟩]).2 } := by
  rw [write_eq] at h
  split at h
  · cases h
  · simp only at h
    split at h
    · rename_i hchanged
      cases h
      obtain ⟨w, hw, hnew⟩ := Siblings.changed_merge_iff.mp hchanged
      rw [List.mem_singleton] at hw
      subst hw
      exact ⟨hnew, rfl, rfl⟩
    · cases h

lemma evolves_write {context : Clock} {value : Bytes} {merged : Siblings}
    (h : r.write key context value = .ok (merged, r'))
    (hgiven : Given key [⟨context.increment r.id, value⟩]) : Evolves Given Relisted r r' := by
  obtain ⟨-, -, rfl⟩ := write_eq_ok h
  exact ⟨rfl, rfl, rfl, fun _ => rfl, [(key, _)], by simpa using hgiven,
    Store.snd_absorbEach_singleton.symm⟩

lemma evolves_countFailure {method : Method} {e : CallError} :
    Evolves Given Relisted r (r.countFailure method e) :=
  .of_eq rfl rfl rfl (fun _ => rfl) rfl

lemma id_of_write {context : Clock} {value : Bytes} {merged : Siblings}
    (h : r.write key context value = .ok (merged, r')) : r'.id = r.id := by
  obtain ⟨-, -, rfl⟩ := write_eq_ok h
  rfl

/-- The set that an accepted write sends to peers has a version that covers it. -/
lemma mem_of_write {context : Clock} {value : Bytes} {merged : Siblings}
    (h : r.write key context value = .ok (merged, r')) :
    ⟨context.increment r.id, value⟩ ∈ merged := by
  obtain ⟨hnew, rfl, -⟩ := write_eq_ok h
  exact Siblings.mem_merge.mpr (.inr ⟨List.mem_singleton_self _, hnew⟩)

/-- A replica holds what an accepted write sends to peers. -/
lemma versions_of_write {context : Clock} {value : Bytes} {merged : Siblings}
    (h : r.write key context value = .ok (merged, r')) : r'.store.versions key = merged := by
  obtain ⟨hnew, rfl, rfl⟩ := write_eq_ok h
  exact Store.versions_absorb_of_changed
    (Siblings.changed_merge_iff.mpr ⟨_, List.mem_singleton_self _, hnew⟩)

/-- A replica knows of a write that it has accepted. -/
lemma knows_of_write {context : Clock} {value : Bytes} {merged : Siblings}
    (h : r.write key context value = .ok (merged, r')) :
    r'.store.Knows key (context.increment r.id) := by
  obtain ⟨-, -, rfl⟩ := write_eq_ok h
  exact Store.knows_absorb.mpr (.inr ⟨rfl, _, List.mem_singleton_self _, le_rfl⟩)

/-- A version stays when a write is accepted if the new one is not after it, and then
the two are concurrent. -/
lemma mem_versions_of_write {context : Clock} {value : Bytes} {merged : Siblings} {v : Version}
    (h : r.write key context value = .ok (merged, r')) (hv : v ∈ r.store.versions key) :
    v ∈ r'.store.versions key ↔ ¬ v.clock ≤ context.increment r.id := by
  obtain ⟨hnew, rfl, rfl⟩ := write_eq_ok h
  have hchanged : ((r.store.versions key).merge [⟨context.increment r.id, value⟩]).changed = true :=
    Siblings.changed_merge_iff.mpr ⟨_, List.mem_singleton_self _, hnew⟩
  have hnot : ¬ context.increment r.id ≤ v.clock := fun hle => hnew ⟨v, hv, hle⟩
  rw [Store.versions_absorb_of_changed hchanged, Siblings.mem_merge]
  constructor
  · rintro (⟨-, hsurvives⟩ | ⟨-, hfresh⟩)
    · exact fun hle => hsurvives _ (List.mem_singleton_self _) (lt_of_le_not_ge hle hnot)
    · exact absurd (Siblings.covers_of_mem hv) hfresh
  · intro hle
    refine .inl ⟨hv, fun w hw hlt => hle ?_⟩
    rw [List.mem_singleton] at hw
    subst hw
    exact hlt.le

/-- A replica in service answers a peer with what it holds. -/
lemma fetch_eq (r : Replica) (key : String) :
    r.fetch key =
      if r.outage.down then .error .crashed
      else
        match r.store.get? key with
        | some versions => .ok versions
        | none => .error (.notFound key) := by
  rw [fetch, Outage.available]
  split <;> rfl

lemma fetch_eq_ok (h : r.fetch key = .ok versions) : r.store.get? key = some versions := by
  rw [fetch_eq] at h
  split at h
  · cases h
  · split at h
    · rename_i hget
      cases h
      exact hget
    · cases h

/-- A replica that knows of a write does not answer that it holds nothing. -/
lemma not_knows_of_fetch_notFound (h : r.fetch key = .error (.notFound k)) :
    ¬ r.store.Knows key c := by
  intro hk
  obtain ⟨versions, hget⟩ := Store.knows_of_get?_isSome hk
  rw [fetch_eq, hget] at h
  split at h <;> cases h

end Replica

/-! ### Clusters -/

namespace Cluster

variable {Given : String → Siblings → Prop} {Relisted : Prop} {c c' c'' : Cluster}

/-- Every replica of a cluster evolves, and none comes or goes.  A replica that
begins to answer does so at its own endpoint. -/
structure Evolves (Given : String → Siblings → Prop) (Relisted : Prop) (c c' : Cluster) :
    Prop where
  replicas : ∀ j : ℕ, Option.Rel (Replica.Evolves Given Relisted) c.replicas[j]? c'.replicas[j]?
  directory : ∀ p ∈ c'.directory,
    p ∈ c.directory ∨ ∃ r, c.replicas[p.2]? = some r ∧ r.endpoint = p.1

/-- What leaves the replicas alone is an evolution. -/
lemma Evolves.of_replicas_eq (h : c'.replicas = c.replicas)
    (hdirectory : ∀ p ∈ c'.directory,
      p ∈ c.directory ∨ ∃ r, c.replicas[p.2]? = some r ∧ r.endpoint = p.1) :
    Evolves Given Relisted c c' where
  replicas j := by
    rw [h]
    cases c.replicas[j]? with
    | none => exact .none
    | some r => exact .some (.refl r)
  directory := hdirectory

lemma Evolves.refl (c : Cluster) : Evolves Given Relisted c c :=
  .of_replicas_eq rfl fun _ hp => .inl hp

/-- A replica of the later cluster has evolved from one of the earlier. -/
lemma Evolves.exists_before (h : Evolves Given Relisted c c') {j : ℕ} {r' : Replica}
    (hr' : c'.replicas[j]? = some r') :
    ∃ r, c.replicas[j]? = some r ∧ r.Evolves Given Relisted r' := by
  have hj := h.replicas j
  rw [hr'] at hj
  cases hr : c.replicas[j]? with
  | none =>
    rw [hr] at hj
    cases hj
  | some r =>
    rw [hr] at hj
    cases hj with
    | some hrr' => exact ⟨r, rfl, hrr'⟩

/-- A replica of the earlier cluster has evolved into one of the later. -/
lemma Evolves.exists_after (h : Evolves Given Relisted c c') {j : ℕ} {r : Replica}
    (hr : c.replicas[j]? = some r) :
    ∃ r', c'.replicas[j]? = some r' ∧ r.Evolves Given Relisted r' := by
  have hj := h.replicas j
  rw [hr] at hj
  cases hr' : c'.replicas[j]? with
  | none =>
    rw [hr'] at hj
    cases hj
  | some r' =>
    rw [hr'] at hj
    cases hj with
    | some hrr' => exact ⟨r', rfl, hrr'⟩

lemma Evolves.trans (h : Evolves Given Relisted c c') (h' : Evolves Given Relisted c' c'') :
    Evolves Given Relisted c c'' where
  replicas j := by
    have hj := h.replicas j
    have hj' := h'.replicas j
    revert hj hj'
    generalize c.replicas[j]? = x, c'.replicas[j]? = y, c''.replicas[j]? = z
    rintro (hxy | _) hyz
    · cases hyz with
      | some hyz => exact .some (hxy.trans hyz)
    · cases hyz
      exact .none
  directory p hp := by
    rcases h'.directory p hp with hp | ⟨r', hr', hendpoint⟩
    · exact h.directory p hp
    · obtain ⟨r, hr, hevolves⟩ := h.exists_before hr'
      exact .inr ⟨r, hr, hevolves.endpoint.symm.trans hendpoint⟩

/-- What replicas keep, the clusters keep. -/
lemma Evolves.map_eq {α : Type} {f : Replica → α}
    (hkeep : ∀ r r' : Replica, r.Evolves Given Relisted r' → f r' = f r)
    (h : Evolves Given Relisted c c') : c'.replicas.map f = c.replicas.map f := by
  refine List.ext_getElem? fun j => ?_
  rw [List.getElem?_map, List.getElem?_map]
  have hj := h.replicas j
  revert hj
  generalize c.replicas[j]? = x, c'.replicas[j]? = y
  rintro (hxy | _)
  · exact congrArg some (hkeep _ _ hxy)
  · rfl

/-- What is in the place that was changed. -/
lemma getElem?_modify_self {i : ℕ} {r : Replica} {f : Replica → Replica}
    (hr : c.replicas[i]? = some r) : (c.modify i f).replicas[i]? = some (f r) := by
  rw [modify, List.getElem?_modify_eq, hr]
  rfl

/-- Putting a replica in its own place changes nothing. -/
lemma modify_of_getElem? {i : ℕ} {r : Replica} (hr : c.replicas[i]? = some r) :
    c.modify i (fun _ => r) = c := by
  obtain ⟨hlt, rfl⟩ := List.getElem?_eq_some_iff.mp hr
  have hsame : c.replicas.modify i (fun _ => c.replicas[i]) = c.replicas := by
    rw [List.modify_eq_set, List.set_getElem_self]
  rw [modify, hsame]

lemma modify_self (c : Cluster) (i : ℕ) (r : Replica) :
    c.modify i (fun _ => c.replicas[i]?.getD r) = c := by
  cases hr : c.replicas[i]? with
  | some q => exact modify_of_getElem? hr
  | none =>
    have hsame : c.replicas.modify i (fun _ => r) = c.replicas :=
      List.modify_eq_self (List.getElem?_eq_none_iff.mp hr)
    rw [Option.getD_none, modify, hsame]

lemma evolves_modify {i : ℕ} {f : Replica → Replica}
    (h : ∀ r, c.replicas[i]? = some r → r.Evolves Given Relisted (f r)) :
    Evolves Given Relisted c (c.modify i f) where
  replicas j := by
    simp only [modify, List.getElem?_modify]
    cases hj : c.replicas[j]? with
    | none => exact .none
    | some r =>
      by_cases hij : i = j
      · subst hij
        simpa using Option.Rel.some (h r hj)
      · simpa [hij] using Option.Rel.some (Replica.Evolves.refl r)
  directory _ hp := .inl hp

lemma evolves_set {i : ℕ} {r r' : Replica} (hr : c.replicas[i]? = some r)
    (h : r.Evolves Given Relisted r') : Evolves Given Relisted c (c.set i r') where
  replicas j := by
    simp only [set, List.getElem?_set]
    by_cases hij : i = j
    · subst hij
      have hlt : i < c.replicas.length := (List.getElem?_eq_some_iff.mp hr).1
      rw [if_pos rfl, if_pos hlt, hr]
      exact .some h
    · simp only [hij, if_false]
      exact (Evolves.refl c).replicas j
  directory _ hp := .inl hp

lemma evolves_deliver {α : Type} {e : Endpoint}
    {serve : Replica → Except Refusal α × Replica}
    (h : ∀ r : Replica, r.Evolves Given Relisted (serve r).2) :
    Evolves Given Relisted c (c.deliver e serve).2 := by
  rw [deliver]
  split
  · exact .refl c
  · split
    · exact .refl c
    · rename_i r hr
      exact evolves_set hr (h r)

/-- A call that succeeds was served by the replica that answers at the endpoint. -/
lemma deliver_eq_ok {α : Type} {e : Endpoint} {serve : Replica → Except Refusal α × Replica}
    {a : α} (h : c.deliver e serve = (.ok a, c')) :
    ∃ (i : ℕ) (r : Replica), c.whoAnswers? e = some i ∧ c.replicas[i]? = some r ∧
      (serve r).1 = .ok a ∧ c' = c.set i (serve r).2 := by
  rw [deliver] at h
  split at h
  · cases h
  · rename_i i hi
    split at h
    · cases h
    · rename_i r hr
      simp only [Prod.mk.injEq] at h
      obtain ⟨hanswer, rfl⟩ := h
      refine ⟨i, r, hi, hr, ?_, rfl⟩
      cases hserve : (serve r).1 with
      | error refusal => simp [hserve, Except.mapError] at hanswer
      | ok b =>
        rw [hserve] at hanswer
        cases hanswer
        rfl

/-- A fault that is reported was the answer of the replica at the endpoint. -/
lemma deliver_eq_remote {α : Type} {e : Endpoint}
    {serve : Replica → Except Refusal α × Replica} {fault : Fault}
    (h : (c.deliver e serve).1 = .error (.remote fault)) :
    ∃ (i : ℕ) (r : Replica) (refusal : Refusal), c.whoAnswers? e = some i ∧
      c.replicas[i]? = some r ∧ (serve r).1 = .error refusal ∧
      Fault.ofRefusal refusal = fault := by
  rw [deliver] at h
  split at h
  · cases h
  · rename_i i hi
    split at h
    · cases h
    · rename_i r hr
      refine ⟨i, r, ?_⟩
      simp only at h
      cases hserve : (serve r).1 with
      | ok b =>
        rw [hserve] at h
        cases h
      | error refusal =>
        rw [hserve] at h
        cases h
        exact ⟨refusal, hi, hr, rfl, rfl⟩

/-- A replica that is cut off does not answer any more. -/
lemma evolves_detach (c : Cluster) (e : Endpoint) : Evolves Given Relisted c (c.detach e) :=
  .of_replicas_eq rfl fun _ hp => .inl (List.mem_of_mem_filter hp)

lemma evolves_act_detachment (c : Cluster) (i : ℕ) :
    Evolves Given Relisted c (c.act (.detachment i)).2 := by
  simp only [act]
  split
  · exact .refl c
  · exact evolves_detach c _

/-- A replica that is attached answers at its endpoint. -/
lemma evolves_attach (c : Cluster) (i : ℕ) : Evolves Given Relisted c (c.attach i) := by
  rw [attach]
  split
  · exact .refl c
  · rename_i r hr
    refine .of_replicas_eq rfl fun p hp => ?_
    rcases List.mem_cons.mp hp with rfl | hp
    · exact .inr ⟨r, hr, rfl⟩
    · exact .inl (List.mem_of_mem_filter hp)

end Cluster

/-! ### Calls -/

namespace Fated

variable {Given : String → Siblings → Prop} {Relisted : Prop} {α : Type}
variable {i : ℕ} {r : Replica} {method : Method} {peer : Endpoint} {c : Cluster} {fate : Fate}

lemma evolves_exchange (serve : Replica → Except Refusal α × Replica) (f : Fated)
    (h : ∀ r : Replica, r.Evolves Given Relisted (serve r).2) :
    f.cluster.Evolves Given Relisted (exchange peer serve f).2.cluster := by
  rw [exchange]
  split
  · exact Cluster.evolves_deliver h
  · exact .refl _
  · exact Cluster.evolves_deliver h

/-- However a call fares, its peer does at most what it is asked for, and the
caller at most counts a failure. -/
lemma evolves_counted_exchange (serve : Replica → Except Refusal α × Replica) (f : Fated)
    (h : ∀ r : Replica, r.Evolves Given Relisted (serve r).2) :
    f.cluster.Evolves Given Relisted (Coordination.counted (surroundings i r) method
      (fun p => exchange p serve) peer f).2.cluster := by
  have hcall : f.cluster.Evolves Given Relisted (exchange peer serve f).2.cluster :=
    evolves_exchange serve f h
  simp only [Coordination.counted]
  generalize exchange peer serve f = call at hcall ⊢
  obtain ⟨answer, f'⟩ := call
  cases answer with
  | ok a => exact hcall
  | error e => exact hcall.trans (Cluster.evolves_modify fun _ _ => Replica.evolves_countFailure)

/-- A call that its caller hears to succeed is served then. -/
lemma counted_exchange_eq_ok (serve : Replica → Except Refusal α × Replica) {a : α} {f : Fated}
    (h : Coordination.counted (surroundings i r) method (fun p => exchange p serve) peer
      ⟨c, [fate]⟩ = (.ok a, f)) :
    fate = .heard ∧ c.deliver peer serve = (.ok a, f.cluster) := by
  rw [Coordination.counted, exchange] at h
  cases fate with
  | heard =>
    refine ⟨rfl, ?_⟩
    simp only [List.headD_cons] at h
    split at h
    · rename_i b f' heq
      simp only [Prod.mk.injEq] at h heq
      obtain ⟨hb, rfl⟩ := h
      cases hb
      exact Prod.ext heq.1 (congrArg Fated.cluster heq.2)
    · cases h
  | lost e =>
    simp only [List.headD_cons] at h
    cases h
  | unheard e =>
    simp only [List.headD_cons] at h
    cases h

/-- A failure that a caller hears is the one that the call ended with. -/
lemma counted_exchange_eq_error (serve : Replica → Except Refusal α × Replica) {e : CallError}
    {f : Fated}
    (h : Coordination.counted (surroundings i r) method (fun p => exchange p serve) peer
      ⟨c, [.heard]⟩ = (.error e, f)) :
    (c.deliver peer serve).1 = .error e := by
  rw [Coordination.counted, exchange] at h
  simp only [List.headD_cons] at h
  split at h
  · cases h
  · rename_i e' f' heq
    simp only [Prod.mk.injEq] at h heq
    rw [heq.1, h.1]

end Fated

/-! ### Errands -/

/-- A message carries a version set for a key. -/
def Letter.Carries (key : String) (versions : Siblings) : Letter → Prop
  | .replicate _ k sent => k = key ∧ sent = versions
  | .absorb _ pushed => pushed.get? key = some versions

/-- An arriving message changes only the replica at its endpoint. -/
lemma Letter.evolves_arrive {Given : String → Siblings → Prop} {Relisted : Prop} (c : Cluster)
    (l : Letter) (h : ∀ key versions, l.Carries key versions → Given key versions) :
    c.Evolves Given Relisted (l.arrive c) := by
  cases l with
  | replicate peer key versions =>
    exact Cluster.evolves_deliver fun r => Replica.evolves_replicate (h key versions ⟨rfl, rfl⟩)
  | absorb peer pushed =>
    exact Cluster.evolves_deliver fun r => Replica.evolves_absorb fun key versions => h key versions

namespace Errand

variable {Given : String → Siblings → Prop} {Relisted : Prop}
variable {i : ℕ} {r : Replica} {peer : Endpoint} {c : Cluster} {fate : Fate}

/-- Turning to a peer gives it no more than the message that is sent. -/
lemma evolves_ask (x : Errand) (f : Fated)
    (h : ∀ l ∈ x.letter? peer, ∀ key versions, l.Carries key versions → Given key versions) :
    f.cluster.Evolves Given Relisted (x.ask (Fated.surroundings i r) peer f).2.cluster := by
  cases x with
  | put write merged acks =>
    exact Fated.evolves_counted_exchange (fun q => q.replicate write.key merged) f
      fun q => Replica.evolves_replicate (h _ rfl _ _ ⟨rfl, rfl⟩)
  | get key reads versions =>
    exact Fated.evolves_counted_exchange (Cluster.serveFetch key) f fun q => .refl q
  | gossip snapshot reached =>
    exact Fated.evolves_counted_exchange (fun q => q.absorb snapshot) f
      fun q => Replica.evolves_absorb fun key versions hget => h _ rfl key versions hget

/-- A confirmation of a write comes from a replica that has merged it. -/
lemma ask_put_eq_ok {write : Write} {merged : Siblings} {acks : ℕ} {x : Errand} {f : Fated}
    (h : (put write merged acks).ask (Fated.surroundings i r) peer ⟨c, [fate]⟩ = (.ok x, f)) :
    fate = .heard ∧ x = put write merged (acks + 1) ∧
      ∃ (j : ℕ) (q : Replica), c.whoAnswers? peer = some j ∧ c.replicas[j]? = some q ∧
        q.outage.down = false ∧ f.cluster = c.set j (q.replicate write.key merged).2 := by
  simp only [ask, Prod.mk.injEq] at h
  obtain ⟨hanswer, rfl⟩ := h
  obtain ⟨stored, hstored, rfl⟩ := Except.exists_of_map_eq_ok hanswer
  obtain ⟨hfate, hdeliver⟩ := Fated.counted_exchange_eq_ok
    (fun q => q.replicate write.key merged) (Prod.ext hstored rfl)
  obtain ⟨j, q, hj, hq, hserve, hset⟩ := Cluster.deliver_eq_ok hdeliver
  refine ⟨hfate, rfl, j, q, hj, hq, ?_, hset⟩
  change (q.replicate write.key merged).1 = .ok stored at hserve
  rw [Replica.replicate_eq] at hserve
  split at hserve
  · cases hserve
  · rename_i hdown
    exact Bool.eq_false_iff.mpr hdown

end Errand

/-! ### Requests -/

/-- A write, read or push begins with the replica's own part of it. -/
lemma Replica.begin_eq_some {i : ℕ} {r r' : Replica} {request : Request} {o : Operation}
    (h : r.begin i request = some (o, r')) :
    (∃ key context value merged, request = .put key context value ∧
      r.write key context value = .ok (merged, r') ∧
      o = ⟨i, r.quorum, .put ⟨i, r.id, key, context, value⟩ merged 1, r.peers, []⟩) ∨
    r = r' ∧ ((∃ key, request = .get key ∧
        o = ⟨i, r.quorum, .get key 1 (r.store.versions key), r.peers, []⟩) ∨
      request = .gossip ∧ o = ⟨i, r.quorum, .gossip r.store 0, r.peers, []⟩) := by
  cases request with
  | put key context value =>
    simp only [begin] at h
    split at h
    · rename_i merged r'' hwrite
      cases h
      exact .inl ⟨key, context, value, merged, rfl, hwrite, rfl⟩
    · cases h
  | get key =>
    simp only [begin] at h
    split at h
    · cases h
      exact .inr ⟨rfl, .inl ⟨key, rfl, rfl⟩⟩
    · cases h
  | gossip =>
    simp only [begin] at h
    split at h
    · cases h
      exact .inr ⟨rfl, .inr ⟨rfl, rfl⟩⟩
    · cases h
  | _ => cases h

/-- A write, read or push that begins no operation is refused, whatever is around the replica. -/
lemma Replica.exists_refusal_of_begin_eq_none {i : ℕ} {r : Replica} {request : Request}
    (hmethod : request.method = .put ∨ request.method = .get ∨ request.method = .gossip)
    (h : r.begin i request = none) :
    ∃ e, ∀ {σ : Type} (env : Surroundings σ) (s : σ), env.self s = r →
      Coordination.perform env request s = (.error e, s) := by
  cases request with
  | put key context value =>
    cases hwrite : r.write key context value with
    | ok accepted => simp [begin, hwrite] at h
    | error e =>
      refine ⟨e, fun env s hself => ?_⟩
      simp only [Coordination.perform, Coordination.put, hself, hwrite]
      rfl
  | get key =>
    cases havailable : r.outage.available with
    | ok u => simp [begin, havailable] at h
    | error e =>
      refine ⟨e, fun env s hself => ?_⟩
      simp only [Coordination.perform, Coordination.get, hself, havailable]
      rfl
  | gossip =>
    cases havailable : r.outage.available with
    | ok u => simp [begin, havailable] at h
    | error e =>
      refine ⟨e, fun env s hself => ?_⟩
      simp only [Coordination.perform, Coordination.gossip, hself, havailable]
      rfl
  | _ => simp [Request.method] at hmethod

/-- A request that begins no operation changes at most the replica that is asked. -/
lemma Cluster.evolves_act_request {Given : String → Siblings → Prop} {Relisted : Prop}
    {c : Cluster} {i : ℕ} {request : Request}
    (hbegin : ∀ r, c.replicas[i]? = some r → r.begin i request = none)
    (hreplicate : ∀ key versions, request = .replicate key versions → Given key versions)
    (habsorb : ∀ pushed key versions, request = .absorb pushed →
      pushed.get? key = some versions → Given key versions)
    (hlist : ∀ list, request = .assignList list → Relisted) :
    c.Evolves Given Relisted (c.act (.request i request [])).2 := by
  rw [act]
  cases hr : c.replicas[i]? with
  | none => exact .refl c
  | some r =>
    have hself : (Fated.surroundings i r).self ⟨c, []⟩ = r := by
      simp [Fated.surroundings, hr]
    have hnone := hbegin r hr
    dsimp only
    cases request with
    | put key context value | get key | gossip =>
      obtain ⟨e, hrefused⟩ :=
        Replica.exists_refusal_of_begin_eq_none (by simp [Request.method]) hnone
      rw [hrefused _ _ hself]
      exact .refl c
    | replicate key versions =>
      simp only [Coordination.perform, hself]
      refine evolves_modify fun q hq => ?_
      cases hr.symm.trans hq
      exact Replica.evolves_replicate (hreplicate key versions rfl)
    | fetch key => exact .refl c
    | absorb pushed =>
      simp only [Coordination.perform, hself]
      refine evolves_modify fun q hq => ?_
      cases hr.symm.trans hq
      exact Replica.evolves_absorb fun key versions => habsorb pushed key versions rfl
    | crash seconds =>
      simp only [Coordination.perform, Coordination.crash, Coordination.crashFor, hself]
      split
      · exact .refl c
      · exact evolves_modify fun q _ => .of_eq rfl rfl rfl (fun _ => rfl) rfl
    | assignList list =>
      refine evolves_modify fun q _ => ?_
      exact .of_eq rfl rfl rfl (fun h => absurd (hlist list rfl) h) rfl

/-! ### Moves -/

namespace Traffic

variable {s t : Traffic} {m : Move}

/-- A request begins an operation, or is refused or served at once. -/
lemma ask_cases (s : Traffic) (i : ℕ) (request : Request) :
    (∃ r r' o, s.cluster.replicas[i]? = some r ∧ r.begin i request = some (o, r') ∧
      s.ask i request = ⟨s.cluster.modify i fun _ => r', s.operations ++ [o], s.letters⟩) ∨
    (∀ r, s.cluster.replicas[i]? = some r → r.begin i request = none) ∧
      s.ask i request = ⟨(s.cluster.act (.request i request [])).2, s.operations, s.letters⟩ := by
  rw [ask]
  cases hr : s.cluster.replicas[i]? with
  | none => exact .inr ⟨(by simp), rfl⟩
  | some r =>
    cases hbegin : r.begin i request with
    | none =>
      refine .inr ⟨fun q hq => ?_, by simp [hbegin]⟩
      cases hq
      exact hbegin
    | some begun => exact .inl ⟨r, begun.2, begun.1, rfl, hbegin, by simp [hbegin]⟩

/-- A call of an operation that has not ended turns to its next peer; any other
call changes nothing. -/
lemma call_cases (s : Traffic) (k : ℕ) (fate : Fate) :
    s.call k fate = s ∨
      ∃ o peer rest answer f, s.operations[k]? = some o ∧ o.errand.enough o.quorum = false ∧
        o.rest = peer :: rest ∧
        o.errand.ask (Fated.surroundings o.node default) peer ⟨s.cluster, [fate]⟩ = (answer, f) ∧
        s.call k fate = ⟨f.cluster, s.operations.set k (o.note peer rest fate answer),
          s.letters ++ (o.errand.letter? peer).toList⟩ := by
  rw [call]
  split
  · exact .inl rfl
  · rename_i o ho
    split
    · exact .inl rfl
    · rename_i henough
      split
      · exact .inl rfl
      · rename_i peer rest hrest
        exact .inr ⟨o, peer, rest, _, _, ho, Bool.eq_false_iff.mpr henough, hrest, rfl, rfl⟩

/-- A message that arrives is one that was sent. -/
lemma arrive_cases (s : Traffic) (j : ℕ) :
    s.arrive j = s ∨ ∃ l ∈ s.letters, s.arrive j = { s with cluster := l.arrive s.cluster } := by
  rw [arrive]
  split
  · exact .inl rfl
  · rename_i l hl
    exact .inr ⟨l, List.mem_of_getElem? hl, rfl⟩

/-- The version sets that a move may give to replicas. -/
def Given (s : Traffic) (m : Move) (key : String) (versions : Siblings) : Prop :=
  (∃ l ∈ (s.after m).letters, l.Carries key versions) ∨
    (∃ w ∈ (s.after m).writes, w.key = key ∧ versions = [w.version]) ∨
    (∃ i, m = .request i (.replicate key versions)) ∨
    ∃ i pushed, m = .request i (.absorb pushed) ∧ pushed.get? key = some versions

/-- A move gives a replica another preference list. -/
def Relists (m : Move) : Prop :=
  ∃ i list, m = .request i (.assignList list)

lemma evolves_ask (s : Traffic) (i : ℕ) (request : Request) :
    s.cluster.Evolves (s.Given (.request i request)) (Relists (.request i request))
      (s.ask i request).cluster := by
  rcases s.ask_cases i request with ⟨r, r', o, hr, hbegin, hask⟩ | ⟨hbegin, hask⟩
  · rw [hask]
    refine Cluster.evolves_modify fun q hq => ?_
    cases hr.symm.trans hq
    rcases Replica.begin_eq_some hbegin with
      ⟨key, context, value, merged, -, hwrite, rfl⟩ | ⟨rfl, -⟩
    · refine Replica.evolves_write hwrite
        (.inr (.inl ⟨⟨i, r.id, key, context, value⟩, ?_, rfl, rfl⟩))
      change _ ∈ (s.ask i request).writes
      simp [hask, writes, Errand.write?]
    · exact .refl _
  · rw [hask]
    refine Cluster.evolves_act_request hbegin (fun key versions h => ?_)
      (fun pushed key versions h hget => ?_) fun list h => ?_
    · exact .inr (.inr (.inl ⟨i, h ▸ rfl⟩))
    · exact .inr (.inr (.inr ⟨i, pushed, h ▸ rfl, hget⟩))
    · exact ⟨i, list, h ▸ rfl⟩

lemma evolves_call (s : Traffic) (k : ℕ) (fate : Fate) :
    s.cluster.Evolves (s.Given (.call k fate)) (Relists (.call k fate))
      (s.call k fate).cluster := by
  rcases s.call_cases k fate with hcall | ⟨o, peer, rest, answer, f, -, -, -, hask, hcall⟩
  · rw [hcall]
    exact .refl _
  · have hevolves : s.cluster.Evolves (s.Given (.call k fate)) (Relists (.call k fate))
        (o.errand.ask (Fated.surroundings o.node default) peer ⟨s.cluster, [fate]⟩).2.cluster := by
      refine o.errand.evolves_ask ⟨s.cluster, [fate]⟩ fun l hl key versions hcarries => ?_
      refine .inl ⟨l, ?_, hcarries⟩
      change l ∈ (s.call k fate).letters
      rw [hcall]
      exact List.mem_append_right _ (Option.mem_toList.mpr hl)
    rw [hask] at hevolves
    rwa [hcall]

/-- Whatever happens, replicas only absorb what they are given. -/
theorem evolves_after (s : Traffic) (m : Move) :
    s.cluster.Evolves (s.Given m) (Relists m) (s.after m).cluster := by
  cases m with
  | request i request => exact s.evolves_ask i request
  | call k fate => exact s.evolves_call k fate
  | arrival j =>
    rcases s.arrive_cases j with harrive | ⟨l, hl, harrive⟩
    · change s.cluster.Evolves _ _ (s.arrive j).cluster
      rw [harrive]
      exact .refl _
    · change s.cluster.Evolves _ _ (s.arrive j).cluster
      rw [harrive]
      refine l.evolves_arrive s.cluster fun key versions hcarries => .inl ⟨l, ?_, hcarries⟩
      change l ∈ (s.arrive j).letters
      rwa [harrive]
  | recovery i =>
    exact Cluster.evolves_modify fun q _ => .of_eq rfl rfl rfl (fun _ => rfl) rfl
  | detachment i => exact Cluster.evolves_act_detachment s.cluster i
  | attachment i => exact Cluster.evolves_attach s.cluster i

/-- No replica gets another name. -/
lemma Reaches.map_id {Allowed : Traffic → Move → Prop} (h : Reaches Allowed s t) :
    t.cluster.replicas.map Replica.id = s.cluster.replicas.map Replica.id := by
  induction h with
  | refl => rfl
  | @step t m _ _ ih =>
    exact ((t.evolves_after m).map_eq fun _ _ h => h.id).trans ih

/-! ### Knowledge -/

/-- The replica with an index knows of a write. -/
def KnowsAt (s : Traffic) (i : ℕ) (key : String) (c : Clock) : Prop :=
  ∃ r, s.cluster.replicas[i]? = some r ∧ r.store.Knows key c

variable {i : ℕ} {key : String} {c : Clock}

lemma KnowsAt.after (h : s.KnowsAt i key c) (m : Move) : (s.after m).KnowsAt i key c := by
  obtain ⟨r, hr, hknows⟩ := h
  obtain ⟨r', hr', hevolves⟩ := (s.evolves_after m).exists_after hr
  exact ⟨r', hr', hevolves.knows hknows⟩

/-- What a replica knows of it knows ever after. -/
theorem Reaches.knowsAt {Allowed : Traffic → Move → Prop} (h : Reaches Allowed s t)
    (hknows : s.KnowsAt i key c) : t.KnowsAt i key c := by
  induction h with
  | refl => exact hknows
  | step _ _ ih => exact ih.after _

end Traffic

end QuorumStore
