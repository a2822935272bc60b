/-
What a replica knows of, whatever it is asked for and whatever its peers answer.

* `Store.exists_lt_of_not_mem_absorbEach`: a version that a store drops is strictly
  before one that it holds then, also where it was given versions of which one is
  before another;
* `Replica.store_act_request`: all that a request does to the store of a replica in
  service is to absorb the versions that the request gives it;
* `Replica.knows_of_given`: so a replica does not forget what it was given.
-/
import QuorumStore.Proofs.Requests
import QuorumStore.Replica.History

namespace QuorumStore

namespace Store

variable {s : Store} {key k : String} {incoming : Siblings} {v : Version}
variable {pairs : List (String × Siblings)}

/-! ### Dropped versions -/

/-- A version that a store drops when it absorbs others is strictly before a clock of
which it knows then. -/
lemma exists_knows_of_not_mem_absorb (hv : v ∈ s.versions k)
    (hdropped : v ∉ (s.absorb key incoming).2.versions k) :
    ∃ c, v.clock < c ∧ (s.absorb key incoming).2.Knows k c := by
  by_cases hk : key = k
  · subst hk
    by_cases hchanged : ((s.versions key).merge incoming).changed = true
    · rw [versions_absorb_of_changed hchanged, Siblings.mem_merge, not_or] at hdropped
      obtain ⟨w, hw, hlt⟩ : ∃ w ∈ incoming, v.clock < w.clock := by
        by_contra hnone
        exact hdropped.1 ⟨hv, fun w hw hlt => hnone ⟨w, hw, hlt⟩⟩
      exact ⟨w.clock, hlt, knows_absorb_of_mem hw⟩
    · rw [snd_absorb_of_not_changed hchanged] at hdropped
      exact absurd hv hdropped
  · rw [versions_absorb_of_ne hk] at hdropped
    exact absurd hv hdropped

/-- A version that a store drops, at once or later, is strictly before one that it holds
in the end. -/
theorem exists_lt_of_not_mem_absorbEach (hv : v ∈ s.versions k)
    (hdropped : v ∉ (s.absorbEach pairs).2.versions k) :
    ∃ w ∈ (s.absorbEach pairs).2.versions k, v.clock < w.clock := by
  induction pairs generalizing s with
  | nil => exact absurd hv hdropped
  | cons p rest ih =>
    rw [snd_absorbEach_cons] at hdropped ⊢
    by_cases hstays : v ∈ (s.absorb p.1 p.2).2.versions k
    · exact ih hstays hdropped
    · -- what is strictly after it stays covered while the rest is absorbed
      obtain ⟨c, hlt, hknows⟩ := exists_knows_of_not_mem_absorb hv hstays
      have hlater : ((s.absorb p.1 p.2).2.absorbEach rest).2.Knows k c := knows_absorbEach hknows
      obtain ⟨w, hw, hle⟩ := hlater
      exact ⟨w, hw, hlt.trans_le hle⟩

lemma mem_keys_absorb (h : k ∈ s.keys) : k ∈ (s.absorb key incoming).2.keys := by
  by_cases hchanged : ((s.versions key).merge incoming).changed = true
  · rw [KeyMap.mem_keys_iff] at h ⊢
    rw [snd_absorb_of_changed hchanged, KeyMap.get?_insert]
    split
    · exact ⟨_, rfl⟩
    · exact h
  · rwa [snd_absorb_of_not_changed hchanged]

/-- A store loses no key. -/
lemma mem_keys_absorbEach (h : k ∈ s.keys) : k ∈ (s.absorbEach pairs).2.keys := by
  induction pairs generalizing s with
  | nil => exact h
  | cons p rest ih =>
    rw [snd_absorbEach_cons]
    exact ih (mem_keys_absorb h)

end Store

/-! ### Walks -/

namespace Coordination

variable {σ α β : Type}

/-- What an answer keeps of what has been got so far, a walk keeps. -/
lemma walk_fst_of_add {P : β → Prop} {ask : Endpoint → σ → Except CallError α × σ}
    {enough : β → Bool} {add : β → α → β} (hadd : ∀ b a, P b → P (add b a))
    {peers : List Endpoint} {b : β} {s : σ} (h : P b) :
    P (walk ask enough add peers b s).1 := by
  induction peers generalizing b s with
  | nil => exact h
  | cons p rest ih =>
    rw [walk]
    split
    · exact h
    · split
      · exact ih (hadd b _ h)
      · exact ih h

end Coordination

/-! ### Requests -/

namespace Answered

-- the parentheses keep `simp` from using this inside of instances
lemma self_surroundings (s : Answered) : surroundings.self s = s.replica := (rfl)

/-- The answers that peers give do not touch the replica. -/
lemma secluded : surroundings.Secluded where
  update _ _ := rfl
  setTimer _ _ _ := rfl
  replicate _ _ _ s := by cases s with | mk r answers => cases answers <;> rfl
  fetch _ _ s := by cases s with | mk r answers => cases answers <;> rfl
  absorb _ _ s := by cases s with | mk r answers => cases answers <;> rfl

end Answered

namespace Replica

variable {r : Replica} {request : Request} {answers : List Answer}

/-- What a request does to a replica, apart from what this counts. -/
lemma uncounted_act_request (r : Replica) (request : Request) (answers : List Answer) :
    (r.act (.request request answers)).2.uncounted = (r.upon request 0).uncounted :=
  Coordination.self_perform Answered.secluded request ⟨r, answers⟩

/-- A replica keeps its name. -/
lemma id_act (r : Replica) (event : Event) : (r.act event).2.id = r.id := by
  cases event with
  | recovery => rfl
  | request request answers =>
    exact (congrArg Replica.id (r.uncounted_act_request request answers)).trans
      (r.id_upon request 0)

/-- **What a request does to a store.**  A replica in service absorbs the versions that
the request gives it, and a replica out of service nothing. -/
theorem store_act_request (r : Replica) (request : Request) (answers : List Answer) :
    (r.act (.request request answers)).2.store =
      if r.outage.down then r.store else (r.store.absorbEach (request.given r.id)).2 :=
  (congrArg Replica.store (r.uncounted_act_request request answers)).trans
    (r.store_upon request 0)

/-- A replica that does not refuse for being out of service is in service. -/
lemma down_eq_false_of_act_ne
    (h : (r.act (.request request answers)).1 ≠ some (.error .crashed))
    (hmethod : request.method ≠ .assignList) : r.outage.down = false := by
  by_contra hdown
  have hdown : r.outage.down = true := by simpa using hdown
  have hrefused : Coordination.perform Answered.surroundings request ⟨r, answers⟩
      = (.error .crashed, ⟨r, answers⟩) := Coordination.perform_of_down hdown rfl hmethod
  exact h (congrArg some (congrArg Prod.fst hrefused))

/-- A replica that does as it is asked and is given versions is in service. -/
lemma down_eq_false_of_act_eq_ok {outcome : Coordination.Outcome} {p : String × Siblings}
    (hok : (r.act (.request request answers)).1 = some (.ok outcome))
    (hp : p ∈ request.given r.id) : r.outage.down = false := by
  refine down_eq_false_of_act_ne (by rw [hok]; exact nofun) fun hmethod => ?_
  cases request with
  | assignList list => cases hp
  | _ => cases hmethod

/-- What a replica in service knows of it returns to a client, whatever its peers
answer. -/
lemma exists_act_get_of_knows {key : String} {c : Clock} (hup : r.outage.down = false)
    (hknows : r.store.Knows key c) (answers : List Answer) :
    ∃ found, (r.act (.request (.get key) answers)).1 = some (.ok (.get found)) ∧
      found.Covers c := by
  have havailable := Outage.available_of_up hup
  simp only [act, Coordination.perform, Coordination.get, Answered.self_surroundings, havailable]
  generalize hwalk : Coordination.walk _ _ _ r.peers (1, r.store.versions key) _ = walked
  have hcovers : walked.1.2.Covers c := by
    rw [← hwalk]
    exact Coordination.walk_fst_of_add (P := fun got : Nat × Siblings => got.2.Covers c)
      (fun got remote h => Siblings.covers_merge.mpr (.inl h)) hknows
  have hne : ¬ walked.1.2.isEmpty = true := by
    obtain ⟨v, hv, -⟩ := hcovers
    simpa using List.ne_nil_of_mem hv
  exact ⟨walked.1.2, by rw [if_neg hne]; rfl, hcovers⟩

/-- All that events do to the store of a replica is to absorb versions. -/
lemma exists_store_run (r : Replica) (events : List Event) :
    ∃ pairs, (r.run events).store = (r.store.absorbEach pairs).2 := by
  induction events generalizing r with
  | nil => exact ⟨[], rfl⟩
  | cons event rest ih =>
    obtain ⟨pairs, hpairs⟩ := ih (r.act event).2
    change ∃ pairs, ((r.act event).2.run rest).store = _
    rw [hpairs]
    cases event with
    | recovery => exact ⟨pairs, rfl⟩
    | request request answers =>
      rw [store_act_request]
      split
      · exact ⟨pairs, rfl⟩
      · exact ⟨_, (Store.snd_absorbEach_append _ _).symm⟩

/-- **Knowledge.**  Whatever a replica is asked for, and whatever its peers answer:

* once it has accepted a version set it knows of all that this covers, ever after, and
  while it is in service a read returns a version that is equal to it or after it;
* a version that it drops is strictly before one that it holds instead;
* it loses no key. -/
theorem knows_of_given (r : Replica) (later : List Event) :
    (∀ request answers outcome, (r.act (.request request answers)).1 = some (.ok outcome) →
      ∀ key versions c, (key, versions) ∈ request.given r.id → versions.Covers c →
        let r' := (r.act (.request request answers)).2.run later
        r'.store.Knows key c ∧
          (r'.outage.down = false → ∀ answers', ∃ found,
            (r'.act (.request (.get key) answers')).1 = some (.ok (.get found)) ∧
              found.Covers c)) ∧
    (∀ key, ∀ v ∈ r.store.versions key, v ∉ (r.run later).store.versions key →
      ∃ w ∈ (r.run later).store.versions key, v.clock < w.clock) ∧
    ∀ key ∈ r.store.keys, key ∈ (r.run later).store.keys := by
  obtain ⟨pairs, hpairs⟩ := r.exists_store_run later
  refine ⟨fun request answers outcome hok key versions c hgiven hcovers => ?_,
    fun key v hv hdropped => ?_, fun key hkey => ?_⟩
  · have hup := down_eq_false_of_act_eq_ok hok hgiven
    obtain ⟨pairs', hpairs'⟩ := (r.act (.request request answers)).2.exists_store_run later
    have hknows : ((r.act (.request request answers)).2.run later).store.Knows key c := by
      rw [hpairs', store_act_request, if_neg (by simp [hup])]
      exact Store.knows_absorbEach (Store.knows_absorbEach_iff.mpr
        (.inr ⟨(key, versions), hgiven, rfl, hcovers⟩))
    exact ⟨hknows, fun hup' answers' => exists_act_get_of_knows hup' hknows answers'⟩
  · rw [hpairs] at hdropped ⊢
    exact Store.exists_lt_of_not_mem_absorbEach hv hdropped
  · rw [hpairs]
    exact Store.mem_keys_absorbEach hkey

/-- A replica is given two versions of which one is before the other, then one after
both, and goes out of service for a while.  It finds the last, although no peer
answers. -/
theorem knows_of_given_ordered :
    let r := Replica.new ⟨"localhost", 8000⟩ "n1" ⟨1, 2⟩ 500
    let first : Version := ⟨.ofPairs [("n1", 1)], [1]⟩
    let second : Version := ⟨.ofPairs [("n1", 2)], [2]⟩
    let third : Version := ⟨.ofPairs [("n1", 2), ("n2", 1)], [3]⟩
    let given : Event := .request (.replicate "k" [first, second]) []
    let later : List Event := [.request (.replicate "k" [third]) [], .request (.crash 5) [],
      .recovery]
    let r' := (r.act given).2.run later
    (r.act given).1 = some (.ok (.replicate true)) ∧ r'.outage.down = false ∧
      (∃ found, (r'.act (.request (.get "k") [])).1 = some (.ok (.get found)) ∧
        found.Covers first.clock) ∧
      first ∈ (r.act given).2.store.versions "k" ∧ first ∉ r'.store.versions "k" ∧
      (∃ w ∈ r'.store.versions "k", first.clock < w.clock) ∧ "k" ∈ r'.store.keys := by
  intro r first second third given later r'
  have hok : (r.act given).1 = some (.ok (.replicate true)) := rfl
  have hup : r'.outage.down = false := rfl
  have hgiven : ("k", [first, second]) ∈ Request.given r.id (.replicate "k" [first, second]) :=
    List.mem_singleton_self _
  have hheld : first ∈ (r.act given).2.store.versions "k" := by decide +kernel
  have hdropped : first ∉ r'.store.versions "k" := by decide +kernel
  obtain ⟨-, hfinds⟩ := (knows_of_given r later).1 _ _ _ hok _ _ _ hgiven
    (Siblings.covers_of_mem List.mem_cons_self)
  obtain ⟨-, hbefore, hkeys⟩ := knows_of_given (r.act given).2 later
  exact ⟨hok, hup, hfinds hup [], hheld, hdropped, hbefore "k" first hheld hdropped,
    hkeys "k" (by decide +kernel)⟩

end Replica

end QuorumStore
