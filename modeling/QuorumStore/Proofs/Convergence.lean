/-
What replicas agree on when they push their stores to each other and clients write
nothing.

* `Traffic.covers_run_start_iff`: a replica comes to cover what the replicas covered
  from which a chain of pushes leads to it;
* `Traffic.Settled.after`: where every replica covers all that is anywhere, nothing
  changes any more;
* `Traffic.mem_clocks_run_iff`: so replicas hold the maximal clocks of what has reached
  them, and the same once a push of each has reached every other.
-/
import QuorumStore.Proofs.MaximalClocks
import QuorumStore.Proofs.Spreading
import QuorumStore.Proofs.VersionSets

namespace QuorumStore

/-! ### Versions that bring nothing -/

/-- A replica that comes to know of nothing new has its store as it was. -/
lemma Replica.Evolves.store_eq {Given : String → Siblings → Prop} {Relisted : Prop}
    {r r' : Replica} (h : r.Evolves Given Relisted r')
    (hknows : ∀ key clock, r'.store.Knows key clock → r.store.Knows key clock) :
    r'.store = r.store := by
  obtain ⟨pairs, -, hstore⟩ := h.store
  rw [hstore] at hknows ⊢
  refine congrArg Prod.snd (Store.absorbEach_of_knows fun p hp w hw => hknows p.1 w.clock ?_)
  exact Store.knows_absorbEach_iff.mpr (.inr ⟨p, hp, rfl, Siblings.covers_of_mem hw⟩)

/-- A quiet move is one of a closed cluster. -/
lemma Move.Quiet.closed {m : Move} (h : m.Quiet) (s : Traffic) : s.Closed m := by
  constructor
  · rintro i key versions rfl
    exact h
  · rintro i pushed rfl
    exact h

namespace Traffic

variable {s t : Traffic} {m : Move} {moves rest : List Move} {c : Cluster} {key : String}
variable {d : Clock} {p q q' : Place} {i j : ℕ}

lemma reaches_run_of_quiet (hquiet : ∀ m ∈ moves, m.Quiet) : Reaches Closed s (s.run moves) := by
  have hallows : ∀ {moves : List Move} (s : Traffic), (∀ m ∈ moves, m.Quiet) →
      Allows Closed s moves := by
    intro moves
    induction moves with
    | nil => exact fun _ _ => trivial
    | cons m rest ih =>
      intro s h
      rw [List.forall_mem_cons] at h
      exact ⟨h.1.closed s, ih _ h.2⟩
  exact Reaches.refl.run (hallows s hquiet)

/-- What a replica holds is an antichain, if all version sets are. -/
lemma Holds.antichain_versions (h : s.Holds fun _ versions => versions.Antichain) (j : ℕ)
    (key : String) : (s.cluster.versions j key).Antichain := by
  cases hr : s.cluster.replicas[j]? with
  | none =>
    rw [Cluster.versions, hr]
    exact List.Pairwise.nil
  | some r =>
    rw [Cluster.versions_of_getElem? hr]
    exact (h.stores r (List.mem_of_getElem? hr)).versions Siblings.mergeStable_antichain key

/-! ### Chains from the beginning -/

lemma Flows.stays (s : Traffic) (moves : List Move) (p : Place) : s.Flows moves p p := by
  induction moves generalizing s with
  | nil => exact .done
  | cons m rest ih => exact .stay (ih _)

lemma Flows.append (h : s.Flows moves p q) (h' : (s.run moves).Flows rest q q') :
    s.Flows (moves ++ rest) p q' := by
  induction h with
  | done => exact h'
  | stay _ ih => exact .stay (ih h')
  | pass hm _ ih => exact .pass hm (ih h')

/-- Where nothing has been sent yet, all that spreads comes from the stores. -/
theorem covers_run_start_iff (hquiet : ∀ m ∈ moves, m.Quiet) :
    (((start c).run moves).versions key q).Covers d ↔
      ∃ i, (start c).Flows moves (.store i) q ∧ (c.versions i key).Covers d := by
  rw [covers_run_iff hquiet]
  constructor
  · rintro ⟨p, hflows, hcovers⟩
    cases p with
    | store i => exact ⟨i, hflows, hcovers⟩
    | errand k => exact absurd hcovers Siblings.not_covers_nil
    | letter n => exact absurd hcovers Siblings.not_covers_nil
  · rintro ⟨i, hflows, hcovers⟩
    exact ⟨.store i, hflows, hcovers⟩

/-- A push that a replica in service has begun in the course of some moves has got to
another replica. -/
def Pushed (s : Traffic) (moves : List Move) (i j : ℕ) : Prop :=
  ∃ before after r, moves = before ++ .request i .gossip :: after ∧
    (s.run before).cluster.replicas[i]? = some r ∧ r.outage.down = false ∧
      ((s.run before).after (.request i .gossip)).Flows after
        (.errand (s.run before).operations.length) (.store j)

lemma Pushed.flows (h : s.Pushed moves i j) : s.Flows moves (.store i) (.store j) := by
  obtain ⟨before, after, r, rfl, hr, hup, hflows⟩ := h
  exact (Flows.stays s before _).append (.pass (.begun hr hup) hflows)

/-! ### Settled clusters -/

/-- Every replica knows of all versions that are anywhere. -/
def Settled (s : Traffic) : Prop :=
  ∀ key place clock, (s.versions key place).Covers clock →
    ∀ r ∈ s.cluster.replicas, r.store.Knows key clock

/-- Once all is known everywhere no store changes, and all stays known. -/
theorem Settled.after (h : s.Settled) (hquiet : m.Quiet) :
    (s.after m).Settled ∧
      (s.after m).cluster.replicas.map Replica.store = s.cluster.replicas.map Replica.store := by
  have hbefore : ∀ key place clock, ((s.after m).versions key place).Covers clock →
      ∀ r ∈ s.cluster.replicas, r.store.Knows key clock := by
    intro key place clock hcovers
    rcases (covers_after_iff hquiet).mp hcovers with hcovers | ⟨p, -, hcovers⟩
    · exact h key place clock hcovers
    · exact h key p clock hcovers
  have hevolves := s.evolves_after m
  constructor
  · intro key place clock hcovers r' hr'
    obtain ⟨j, hj⟩ := List.mem_iff_getElem?.mp hr'
    obtain ⟨r, hr, hrr'⟩ := hevolves.exists_before hj
    exact hrr'.knows (hbefore key place clock hcovers r (List.mem_of_getElem? hr))
  · refine List.ext_getElem? fun j => ?_
    rw [List.getElem?_map, List.getElem?_map]
    cases hr' : (s.after m).cluster.replicas[j]? with
    | none =>
      cases hr : s.cluster.replicas[j]? with
      | none => rfl
      | some r =>
        obtain ⟨r', hsome, -⟩ := hevolves.exists_after hr
        cases hr'.symm.trans hsome
    | some r' =>
      obtain ⟨r, hr, hrr'⟩ := hevolves.exists_before hr'
      rw [hr, Option.map_some, Option.map_some, hrr'.store_eq fun key clock hknows => ?_]
      refine hbefore key (.store j) clock ?_ r (List.mem_of_getElem? hr)
      rw [versions, Cluster.versions_of_getElem? hr']
      exact hknows

lemma Settled.stores_run (h : s.Settled) (hquiet : ∀ m ∈ moves, m.Quiet) :
    (s.run moves).cluster.replicas.map Replica.store
      = s.cluster.replicas.map Replica.store := by
  induction moves generalizing s with
  | nil => rfl
  | cons m rest ih =>
    rw [List.forall_mem_cons] at hquiet
    obtain ⟨hafter, hstores⟩ := h.after hquiet.1
    exact (ih hafter hquiet.2).trans hstores

lemma length_replicas_run_of_quiet (hquiet : ∀ m ∈ moves, m.Quiet) :
    (s.run moves).cluster.replicas.length = s.cluster.replicas.length := by
  simpa using congrArg List.length (reaches_run_of_quiet hquiet).map_id

/-- Pushes from each replica to every other settle a cluster. -/
theorem settled_of_pushed (hquiet : ∀ m ∈ moves, m.Quiet)
    (hpushed : ∀ i < c.replicas.length, ∀ j < c.replicas.length, i ≠ j →
      (start c).Pushed moves i j) : ((start c).run moves).Settled := by
  intro key place clock hcovers r hr
  obtain ⟨i, -, hstart⟩ := (covers_run_start_iff hquiet).mp hcovers
  obtain ⟨j, hj⟩ := List.mem_iff_getElem?.mp hr
  have hi : i < c.replicas.length := by
    by_contra hi
    rw [Cluster.versions, List.getElem?_eq_none (not_lt.mp hi)] at hstart
    exact Siblings.not_covers_nil hstart
  have hjlt : j < c.replicas.length :=
    (length_replicas_run_of_quiet (s := start c) hquiet) ▸ (List.getElem?_eq_some_iff.mp hj).1
  have hflows : (start c).Flows moves (.store i) (.store j) := by
    by_cases hij : i = j
    · exact hij ▸ Flows.stays _ _ _
    · exact (hpushed i hi j hjlt hij).flows
  have hheld : (((start c).run moves).versions key (.store j)).Covers clock :=
    (covers_run_start_iff hquiet).mpr ⟨i, hflows, hstart⟩
  rw [versions, Cluster.versions_of_getElem? hj] at hheld
  exact hheld

/-- Replicas of a settled cluster cover the same clocks. -/
lemma Settled.covers_iff (h : s.Settled) (hi : i < s.cluster.replicas.length)
    (hj : j < s.cluster.replicas.length) :
    (s.cluster.versions i key).Covers d ↔ (s.cluster.versions j key).Covers d := by
  have hle : ∀ {i j : ℕ}, j < s.cluster.replicas.length → (s.cluster.versions i key).Covers d →
      (s.cluster.versions j key).Covers d := fun {i j} hj hcovers => by
    have hr := List.getElem?_eq_getElem hj
    rw [Cluster.versions_of_getElem? hr]
    exact h key (.store i) d hcovers _ (List.mem_of_getElem? hr)
  exact ⟨hle hj, hle hi⟩

/-- **Convergence.**  Let a closed cluster get from empty stores to some state, and let
nothing be written from then on: replicas push their stores to each other, and each push
to a peer is heard, unheard or lost, or is late.  Then

* a replica holds for each key the maximal clocks of what the replicas held in the
  beginning from which a chain of such pushes leads to it;
* once a push of each replica has got to every other, all replicas hold the same, and
  whatever they push later changes no store. -/
theorem mem_clocks_run_iff (hempty : ∀ r ∈ c.replicas, r.store = KeyMap.empty)
    (h : Reaches Closed (start c) s) (hquiet : ∀ m ∈ moves, m.Quiet) :
    let u := start s.cluster
    let t := u.run moves
    (∀ j key clock, clock ∈ (t.cluster.versions j key).clocks ↔
      Maximal (fun d => ∃ i, u.Flows moves (.store i) (.store j) ∧
        d ∈ (s.cluster.versions i key).clocks) clock) ∧
    ((∀ i < s.cluster.replicas.length, ∀ j < s.cluster.replicas.length, i ≠ j →
        u.Pushed moves i j) →
      (∀ i < s.cluster.replicas.length, ∀ j < s.cluster.replicas.length, ∀ key,
        (t.cluster.versions i key).Matches (t.cluster.versions j key)) ∧
      ∀ further : List Move, (∀ m ∈ further, m.Quiet) →
        (t.run further).cluster.replicas.map Replica.store
          = t.cluster.replicas.map Replica.store) := by
  intro u t
  have hstart : u.Holds fun _ versions => versions.Antichain :=
    ⟨(holds_antichain_of_reaches hempty h).stores, by simp [u, start], by simp [u, start]⟩
  have hantichain : ∀ j key, (t.cluster.versions j key).Antichain := fun j key =>
    (hstart.antichain (reaches_run_of_quiet hquiet)).antichain_versions j key
  refine ⟨fun j key clock => ?_, fun hpushed => ?_⟩
  · refine (hantichain j key).mem_clocks_iff_of_covers fun clock => ?_
    refine (covers_run_start_iff (q := .store j) hquiet).trans ?_
    simp only [Siblings.covers_iff_exists_clock]
    constructor
    · rintro ⟨i, hflows, d, hd, hle⟩
      exact ⟨d, ⟨i, hflows, hd⟩, hle⟩
    · rintro ⟨d, ⟨i, hflows, hd⟩, hle⟩
      exact ⟨i, hflows, d, hd, hle⟩
  · have hsettled : t.Settled := settled_of_pushed hquiet hpushed
    have hlength : t.cluster.replicas.length = s.cluster.replicas.length :=
      length_replicas_run_of_quiet hquiet
    refine ⟨fun i hi j hj key => ?_, fun further hfurther => hsettled.stores_run hfurther⟩
    exact (hantichain i key).matches_of_covers (hantichain j key) fun clock =>
      hsettled.covers_iff (hlength ▸ hi) (hlength ▸ hj)

/-- Two replicas have each accepted a write.  Their pushes overlap, and the second is
served although its sender hears of a failure.  Both hold both versions then, and a
further push changes nothing. -/
theorem mem_clocks_run_iff_pair :
    let s := (start (.pair ⟨1, 1⟩)).run
      [.request 0 (.put "k" .empty [1]), .request 1 (.put "k" .empty [2])]
    let moves : List Move := [.request 0 .gossip, .request 1 .gossip, .call 0 .heard,
      .call 1 (.unheard (.timeout "localhost:8000"))]
    let further : List Move := [.request 0 .gossip, .call 2 .heard]
    let u := start s.cluster
    let t := u.run moves
    (∀ r ∈ (Cluster.pair ⟨1, 1⟩).replicas, r.store = KeyMap.empty) ∧
      Reaches Closed (start (.pair ⟨1, 1⟩)) s ∧ (∀ m ∈ moves, m.Quiet) ∧
      u.Pushed moves 0 1 ∧ u.Pushed moves 1 0 ∧
      (s.cluster.versions 0 "k").clocks = [.ofPairs [("n1", 1)]] ∧
      Maximal (fun d => ∃ i, u.Flows moves (.store i) (.store 0) ∧
        d ∈ (s.cluster.versions i "k").clocks) (.ofPairs [("n2", 1)]) ∧
      (t.cluster.versions 0 "k").Matches (t.cluster.versions 1 "k") ∧
      (t.run further).cluster.replicas.map Replica.store
        = t.cluster.replicas.map Replica.store := by
  intro s moves further
  have hempty : ∀ r ∈ (Cluster.pair ⟨1, 1⟩).replicas, r.store = KeyMap.empty := by decide +kernel
  have hreaches : Reaches Closed (start (.pair ⟨1, 1⟩)) s := by
    refine Reaches.refl.run ?_
    simp [Allows, Closed]
  have hquiet : ∀ m ∈ moves, m.Quiet := by simp [moves, Move.Quiet]
  have hfurther : ∀ m ∈ further, m.Quiet := by simp [further, Move.Quiet]
  have hfirst : (start s.cluster).Pushed moves 0 1 :=
    ⟨[], _, _, rfl, rfl, rfl, .stay (.pass
      (.served rfl ⟨rfl, _, _, rfl, rfl⟩ trivial ⟨rfl, _, rfl, rfl⟩) (.stay .done))⟩
  have hsecond : (start s.cluster).Pushed moves 1 0 :=
    ⟨[.request 0 .gossip], _, _, rfl, rfl, rfl, .stay (.pass
      (.served rfl ⟨rfl, _, _, rfl, rfl⟩ trivial ⟨rfl, _, rfl, rfl⟩) .done)⟩
  have hlength : s.cluster.replicas.length = 2 := rfl
  have hpushed : ∀ i < s.cluster.replicas.length, ∀ j < s.cluster.replicas.length, i ≠ j →
      (start s.cluster).Pushed moves i j := by
    intro i hi j hj hij
    obtain ⟨rfl, rfl⟩ | ⟨rfl, rfl⟩ : i = 0 ∧ j = 1 ∨ i = 1 ∧ j = 0 := by omega
    · exact hfirst
    · exact hsecond
  have hheld : .ofPairs [("n2", 1)]
      ∈ (((start s.cluster).run moves).cluster.versions 0 "k").clocks := by decide +kernel
  obtain ⟨hmaximal, hsame⟩ := mem_clocks_run_iff hempty hreaches hquiet
  obtain ⟨hmatches, hstores⟩ := hsame hpushed
  exact ⟨hempty, hreaches, hquiet, hfirst, hsecond, by decide +kernel,
    (hmaximal 0 "k" _).mp hheld, hmatches 0 (by omega) 1 (by omega) "k", hstores further hfurther⟩

end Traffic

end QuorumStore
