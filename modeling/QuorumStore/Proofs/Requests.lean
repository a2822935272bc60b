/-
What a request comes to at the replica that serves it, whatever this finds around it.

* `Coordination.perform_of_down`: out of service it refuses everything but another
  preference list, asks no peer and changes nothing;
* `Coordination.concerns_of_perform`: in service it refuses a write that brings nothing,
  and a read of a key of which it finds no version;
* `Coordination.self_perform`: if its calls leave it alone, the replica absorbs what it is
  given, goes out of service or takes over a list as it is asked to, and else counts.
-/
import QuorumStore.Proofs.Evolution

namespace QuorumStore

/-! ### One replica -/

lemma Outage.available_eq_error_iff {o : Outage} {e : Refusal} :
    o.available = .error e ↔ o.down = true ∧ e = .crashed := by
  rw [available]
  cases o.down
  · simp
  · simp [eq_comm]

lemma Outage.available_of_up {o : Outage} (hup : o.down = false) : o.available = .ok () := by
  simp [available, hup]

namespace Replica

variable {r : Replica} {key : String} {e : Refusal}

lemma write_eq_error {context : Clock} {value : Bytes}
    (h : r.write key context value = .error e) : e = .crashed ∨ e = .stale := by
  rw [write_eq] at h
  split at h
  · cases h
    exact .inl rfl
  · simp only at h
    split at h
    · cases h
    · cases h
      exact .inr rfl

lemma replicate_eq_error {versions : Siblings} (h : (r.replicate key versions).1 = .error e) :
    e = .crashed ∧ (r.replicate key versions).2 = r := by
  rw [replicate_eq] at h ⊢
  split at h
  · rename_i hdown
    cases h
    exact ⟨rfl, congrArg Prod.snd (if_pos hdown)⟩
  · cases h

lemma fetch_eq_error (h : r.fetch key = .error e) : e = .crashed ∨ e = .notFound key := by
  rw [fetch_eq] at h
  split at h
  · cases h
    exact .inl rfl
  · split at h
    · cases h
    · cases h
      exact .inr rfl

lemma absorb_eq_error {pushed : Store} (h : (r.absorb pushed).1 = .error e) :
    e = .crashed ∧ (r.absorb pushed).2 = r := by
  rw [absorb_eq] at h ⊢
  split at h
  · rename_i hdown
    cases h
    exact ⟨rfl, congrArg Prod.snd (if_pos hdown)⟩
  · cases h

end Replica

/-! ### Refusals -/

/-- A refusal can be the answer to a request. -/
def Refusal.Concerns (request : Request) : Refusal → Prop
  | .crashed => request.method ≠ .assignList
  | .stale => request.method = .put
  | .notFound key => request = .get key ∨ request = .fetch key

namespace Coordination

variable {σ : Type} {env : Surroundings σ} {s : σ} {request : Request} {e : Refusal}

/-- A write is refused before any peer is asked. -/
lemma put_eq_error {key : String} {context : Clock} {value : Bytes}
    (h : (put env key context value s).1 = .error e) :
    (e = .crashed ∨ e = .stale) ∧ (put env key context value s).2 = s := by
  rw [put] at h ⊢
  cases hwrite : (env.self s).write key context value with
  | error e' =>
    simp only [hwrite] at h
    cases h
    exact ⟨Replica.write_eq_error hwrite, rfl⟩
  | ok accepted =>
    simp only [hwrite] at h
    cases h

lemma get_eq_error {key : String} (h : (get env key s).1 = .error e) :
    e = .crashed ∨ e = .notFound key := by
  rw [get] at h
  cases havailable : (env.self s).outage.available with
  | error e' =>
    simp only [havailable] at h
    cases h
    exact .inl (Outage.available_eq_error_iff.mp havailable).2
  | ok u =>
    simp only [havailable] at h
    split at h
    · cases h
      exact .inr rfl
    · cases h

/-- A push is refused before any peer is asked. -/
lemma gossip_eq_error (h : (gossip env s).1 = .error e) :
    e = .crashed ∧ (gossip env s).2 = s := by
  rw [gossip] at h ⊢
  cases havailable : (env.self s).outage.available with
  | error e' =>
    simp only [havailable] at h
    cases h
    exact ⟨(Outage.available_eq_error_iff.mp havailable).2, rfl⟩
  | ok u =>
    simp only [havailable] at h
    cases h

lemma crash_eq_error {seconds : UInt64} (h : (crash env seconds s).1 = .error e) :
    e = .crashed ∧ (crash env seconds s).2 = s := by
  rw [crash, crashFor, Outage.start] at h ⊢
  by_cases hdown : (env.self s).outage.down = true
  · rw [if_pos hdown] at h ⊢
    cases h
    exact ⟨rfl, rfl⟩
  · rw [if_neg hdown] at h
    cases h

/-- **Out of service.**  A replica that is out of service refuses all but a preference
list.  It calls no peer and sets no timer, and all stays as it is. -/
theorem perform_of_down (hdown : (env.self s).outage.down = true)
    (hself : env.update (fun _ => env.self s) s = s) (hmethod : request.method ≠ .assignList) :
    perform env request s = (.error .crashed, s) := by
  have hrefused : (env.self s).outage.available = .error .crashed :=
    Outage.available_eq_error_iff.mpr ⟨hdown, rfl⟩
  cases request with
  | put key context value => simp [perform, put, Replica.write_eq, hdown, Except.map]
  | get key => simp [perform, get, hrefused, Except.map]
  | replicate key versions => simp [perform, Replica.replicate_eq, hdown, hself, Except.map]
  | fetch key => simp [perform, Replica.fetch_eq, hdown, Except.map]
  | absorb pushed => simp [perform, Replica.absorb_eq, hdown, hself, Except.map]
  | gossip => simp [perform, gossip, hrefused, Except.map]
  | crash seconds => simp [perform, crash, crashFor, Outage.start, hdown, Except.map]
  | assignList list => exact absurd rfl hmethod

/-- A request that is refused changes nothing.  Only a read asks peers before it is. -/
theorem perform_eq_error (h : (perform env request s).1 = .error e)
    (hself : env.update (fun _ => env.self s) s = s) (hmethod : request.method ≠ .get) :
    (perform env request s).2 = s := by
  cases request with
  | put key context value => exact (put_eq_error (Except.eq_error_of_map_eq_error h)).2
  | get key => exact absurd rfl hmethod
  | replicate key versions =>
    have hkept := (Replica.replicate_eq_error (Except.eq_error_of_map_eq_error h)).2
    simp only [perform, hkept, hself]
  | fetch key => rfl
  | absorb pushed =>
    have hkept := (Replica.absorb_eq_error (Except.eq_error_of_map_eq_error h)).2
    simp only [perform, hkept, hself]
  | gossip => exact (gossip_eq_error (Except.eq_error_of_map_eq_error h)).2
  | crash seconds => exact (crash_eq_error (Except.eq_error_of_map_eq_error h)).2
  | assignList list => cases h

/-- A replica refuses a request for a reason that concerns it. -/
theorem concerns_of_perform (h : (perform env request s).1 = .error e) : e.Concerns request := by
  cases request with
  | put key context value =>
    rcases (put_eq_error (Except.eq_error_of_map_eq_error h)).1 with rfl | rfl
    · exact nofun
    · rfl
  | get key =>
    rcases get_eq_error (Except.eq_error_of_map_eq_error h) with rfl | rfl
    · exact nofun
    · exact .inl rfl
  | replicate key versions =>
    obtain ⟨rfl, -⟩ := Replica.replicate_eq_error (Except.eq_error_of_map_eq_error h)
    exact nofun
  | fetch key =>
    rcases Replica.fetch_eq_error (Except.eq_error_of_map_eq_error h) with rfl | rfl
    · exact nofun
    · exact .inr rfl
  | absorb pushed =>
    obtain ⟨rfl, -⟩ := Replica.absorb_eq_error (Except.eq_error_of_map_eq_error h)
    exact nofun
  | gossip =>
    obtain ⟨rfl, -⟩ := gossip_eq_error (Except.eq_error_of_map_eq_error h)
    exact nofun
  | crash seconds =>
    obtain ⟨rfl, -⟩ := crash_eq_error (Except.eq_error_of_map_eq_error h)
    exact nofun
  | assignList list => cases h

end Coordination

/-! ### What is left of a replica -/

/-- The version sets that a request gives to a replica with a name. -/
def Request.given (id : String) : Request → List (String × Siblings)
  | .put key context value => [(key, [⟨context.increment id, value⟩])]
  | .replicate key versions => [(key, versions)]
  | .absorb pushed => pushed.entries
  | _ => []

/-- What a request that comes at a moment leaves of a replica, apart from what this has
counted. -/
def Replica.upon (request : Request) (now : ℕ) (r : Replica) : Replica :=
  match request with
  | .crash seconds =>
    match r.outage.start now (seconds.toNat * 1000) with
    | .ok outage => { r with outage }
    | .error _ => r
  | .assignList list => r.assignList list
  | _ =>
    if r.outage.down then r
    else { r with store := (r.store.absorbEach (request.given r.id)).2 }

/-- A request that gives versions to a replica in service makes it absorb them. -/
lemma Replica.store_upon (request : Request) (now : ℕ) (r : Replica) :
    (r.upon request now).store =
      if r.outage.down then r.store else (r.store.absorbEach (request.given r.id)).2 := by
  cases request with
  | crash seconds =>
    simp only [upon, Request.given, Store.snd_absorbEach_nil, ite_self]
    split <;> rfl
  | assignList list =>
    simp only [upon, Request.given, Store.snd_absorbEach_nil, ite_self]
    rfl
  | _ =>
    simp only [upon]
    split <;> rfl

lemma Replica.id_upon (request : Request) (now : ℕ) (r : Replica) :
    (r.upon request now).id = r.id := by
  cases request with
  | assignList list => rfl
  | _ =>
    simp only [upon]
    split <;> rfl

/-- Only an outage changes whether a replica is in service. -/
lemma Replica.outage_upon {request : Request} (h : request.method ≠ .crash) (now : ℕ)
    (r : Replica) : (r.upon request now).outage = r.outage := by
  cases request with
  | crash seconds => exact absurd rfl h
  | assignList list => rfl
  | _ =>
    simp only [upon]
    split <;> rfl

/-- A replica apart from what it has counted. -/
def Replica.uncounted (r : Replica) : Replica :=
  { r with tally := .zero }

/-- Whatever a replica asks of its surroundings, they leave the replica itself alone. -/
structure Surroundings.Secluded {σ : Type} (env : Surroundings σ) : Prop where
  update : ∀ f s, env.self (env.update f s) = f (env.self s)
  setTimer : ∀ length episode s, env.self (env.setTimer length episode s) = env.self s
  replicate : ∀ e key versions s, env.self (env.replicate e key versions s).2 = env.self s
  fetch : ∀ e key s, env.self (env.fetch e key s).2 = env.self s
  absorb : ∀ e pushed s, env.self (env.absorb e pushed s).2 = env.self s

namespace Coordination

variable {σ α β : Type} {env : Surroundings σ} {R : σ → σ → Prop} {method : Method}
variable {ask : Endpoint → σ → Except CallError α × σ}

/-- A call does no more than what is asked of the peer, and counting a failure. -/
lemma counted_rel (htrans : ∀ {s t u}, R s t → R t u → R s u) (hask : ∀ e s, R s (ask e s).2)
    (hcount : ∀ cause s, R s (env.update (·.countFailure method cause) s)) (e : Endpoint) (s : σ) :
    R s (counted env method ask e s).2 := by
  have he := hask e s
  rw [counted]
  split
  · rename_i heq
    rwa [heq] at he
  · rename_i heq
    rw [heq] at he
    exact htrans he (hcount _ _)

/-- What each call does to the surroundings, in the sense of a relation that can be chained,
a walk does. -/
lemma walk_rel (hrefl : ∀ s, R s s) (htrans : ∀ {s t u}, R s t → R t u → R s u)
    (hask : ∀ e s, R s (ask e s).2) (enough : β → Bool) (add : β → α → β)
    (peers : List Endpoint) (b : β) (s : σ) : R s (walk ask enough add peers b s).2 := by
  induction peers generalizing b s with
  | nil => exact hrefl s
  | cons e rest ih =>
    have he := hask e s
    rw [walk]
    split
    · exact hrefl s
    · split
      · rename_i heq
        rw [heq] at he
        exact htrans he (ih _ _)
      · rename_i heq
        rw [heq] at he
        exact htrans he (ih _ _)

/-- A read does no more than its reads of peers, and counting failures. -/
lemma get_rel (hrefl : ∀ s, R s s) (htrans : ∀ {s t u}, R s t → R t u → R s u) {key : String}
    (hfetch : ∀ e s, R s (env.fetch e key s).2)
    (hcount : ∀ cause s, R s (env.update (·.countFailure .fetch cause) s)) (s : σ) :
    R s (get env key s).2 := by
  simp only [get]
  split
  · exact hrefl s
  · exact walk_rel hrefl htrans (counted_rel htrans hfetch hcount) _ _ _ _ s

variable (env) in
/-- What whatever a replica asks of its surroundings does to these, in the sense of a relation
that can be chained, a request does. -/
lemma perform_rel (hrefl : ∀ s, R s s) (htrans : ∀ {s t u}, R s t → R t u → R s u)
    (hupdate : ∀ f s, R s (env.update f s))
    (hreplicate : ∀ e key versions s, R s (env.replicate e key versions s).2)
    (hfetch : ∀ e key s, R s (env.fetch e key s).2)
    (habsorb : ∀ e pushed s, R s (env.absorb e pushed s).2) {request : Request}
    (hset : request.method = .crash → ∀ length episode s, R s (env.setTimer length episode s))
    (s : σ) : R s (perform env request s).2 := by
  have hwalk : ∀ {α β : Type} {method : Method} {ask : Endpoint → σ → Except CallError α × σ},
      (∀ e s, R s (ask e s).2) → ∀ (enough : β → Bool) (add : β → α → β) peers b s,
        R s (walk (counted env method ask) enough add peers b s).2 := fun hask =>
    walk_rel hrefl htrans (counted_rel htrans hask fun _ => hupdate _)
  cases request with
  | put key context value =>
    simp only [perform, put]
    split
    · exact hrefl s
    · exact htrans (hupdate _ s) (hwalk (hreplicate · key _) _ _ _ _ _)
  | get key => exact get_rel hrefl htrans (hfetch · key) (fun _ => hupdate _) s
  | replicate key versions => exact hupdate _ s
  | fetch key => exact hrefl s
  | absorb pushed => exact hupdate _ s
  | gossip =>
    simp only [perform, gossip]
    split
    · exact hrefl s
    · exact hwalk (habsorb · _) _ _ _ _ _
  | crash seconds =>
    simp only [perform, crash, crashFor]
    split
    · exact hrefl s
    · exact htrans (hupdate _ s) (hset rfl _ _ _)
  | assignList list => exact hupdate _ s

/-- A walk over peers leaves a replica as it is, apart from the failures that it counts. -/
lemma self_walk (hupdate : ∀ f s, env.self (env.update f s) = f (env.self s))
    (hask : ∀ e s, env.self (ask e s).2 = env.self s)
    (enough : β → Bool) (add : β → α → β) (peers : List Endpoint) (b : β) (s : σ) :
    (env.self (walk (counted env method ask) enough add peers b s).2).uncounted
      = (env.self s).uncounted := by
  refine walk_rel (R := fun s t => (env.self t).uncounted = (env.self s).uncounted)
    (fun _ => rfl) (fun h h' => h'.trans h) (fun e s => ?_) enough add peers b s
  refine counted_rel (R := fun s t => (env.self t).uncounted = (env.self s).uncounted)
    (fun h h' => h'.trans h) (fun e s => congrArg _ (hask e s)) (fun cause s => ?_) e s
  rw [hupdate]
  rfl

/-- **What a request does to the replica that serves it.** -/
theorem self_perform (henv : env.Secluded) (request : Request) (s : σ) :
    (env.self (perform env request s).2).uncounted
      = ((env.self s).upon request (env.now s)).uncounted := by
  cases request with
  | put key context value =>
    simp only [perform, put, Replica.upon, Request.given, Store.snd_absorbEach_singleton]
    rw [Replica.write_eq]
    by_cases hdown : (env.self s).outage.down = true
    · simp only [if_pos hdown]
    · simp only [if_neg hdown]
      by_cases hchanged : ((env.self s).store.absorb key
          [⟨context.increment (env.self s).id, value⟩]).1.changed = true
      · simp only [if_pos hchanged]
        refine (self_walk henv.update (henv.replicate · key _) _ _ _ _ _).trans ?_
        rw [henv.update]
      · simp only [if_neg hchanged, Store.snd_absorb_of_not_changed hchanged]
  | get key =>
    simp only [perform, get, Replica.upon, Request.given, Store.snd_absorbEach_nil, ite_self]
    cases (env.self s).outage.available with
    | error e => rfl
    | ok u => exact self_walk henv.update (henv.fetch · key) _ _ _ _ _
  | replicate key versions =>
    simp only [perform, Replica.upon, Request.given, Store.snd_absorbEach_singleton]
    rw [henv.update, Replica.replicate_eq]
    split <;> rfl
  | fetch key =>
    simp [perform, Replica.upon, Request.given, Store.snd_absorbEach_nil]
  | absorb pushed =>
    simp only [perform, Replica.upon, Request.given]
    rw [henv.update, Replica.absorb_eq]
    split <;> rfl
  | gossip =>
    simp only [perform, gossip, Replica.upon, Request.given, Store.snd_absorbEach_nil, ite_self]
    cases (env.self s).outage.available with
    | error e => rfl
    | ok u => exact self_walk henv.update (henv.absorb · _) _ _ _ _ _
  | crash seconds =>
    simp only [perform, crash, crashFor, Replica.upon]
    cases (env.self s).outage.start (env.now s) (seconds.toNat * 1000) with
    | error e => rfl
    | ok outage =>
      dsimp only
      rw [henv.setTimer, henv.update]
  | assignList list =>
    simp only [perform, Replica.upon]
    rw [henv.update]

end Coordination

end QuorumStore
