/-
Writes and versions of a closed cluster: every version is one that an accepted write has
made, and a write that no other one is after is not lost.

* `Traffic.accepted_of_mem`: an accepted write was asked for and accepted in an
  earlier state;
* `Traffic.Kept`: the replica of a write holds its version, or has made way for a write
  that is strictly after it;
* `Traffic.versions_of_writes`: where versions come from, and which of them stay.
-/
import QuorumStore.Proofs.Knowledge
import QuorumStore.Proofs.Provenance

namespace QuorumStore

/-- A write raises the counter of its signer by one, as far as there is room. -/
lemma Clock.toNat_next_eq_min (n : UInt64) :
    (Clock.next n).toNat = min (n.toNat + 1) counterLimit.toNat := by
  have hlimit : counterLimit.toNat = 18446744073709551615 := by decide
  by_cases hn : n = counterLimit
  · subst hn
    rw [next_counterLimit]
    omega
  · have hne : n.toNat ≠ counterLimit.toNat := fun h => hn (UInt64.toNat_inj.mp h)
    have hlt := n.toNat_lt
    rw [toNat_next hn]
    omega

namespace Traffic

variable {s t : Traffic} {m : Move} {w : Write} {c : Cluster}

/-! ### Accepted writes -/

/-- A write was accepted on the way to a state: in an earlier one its replica was asked
for it and accepted it. -/
def Accepted (Allowed : Traffic → Move → Prop) (first s : Traffic) (w : Write) : Prop :=
  ∃ t r merged r', Reaches Allowed first t ∧ t.cluster.replicas[w.node]? = some r ∧
    r.id = w.signer ∧ r.write w.key w.context w.value = .ok (merged, r') ∧
    Reaches Allowed (t.after (.request w.node (.put w.key w.context w.value))) s

lemma Accepted.after {Allowed : Traffic → Move → Prop} {first : Traffic}
    (h : Accepted Allowed first s w) (hallowed : Allowed s m) :
    Accepted Allowed first (s.after m) w := by
  obtain ⟨t, r, merged, r', ht, hr, hid, hwrite, hs⟩ := h
  exact ⟨t, r, merged, r', ht, hr, hid, hwrite, hs.step hallowed⟩

/-- The writes that are on record were accepted. -/
theorem accepted_of_mem {Allowed : Traffic → Move → Prop}
    (h : Reaches Allowed (start c) s) (hw : w ∈ s.writes) : Accepted Allowed (start c) s w := by
  induction h with
  | refl => simp [start, writes] at hw
  | @step t m ht hallowed ih =>
    rcases t.writes_after m with hwrites | ⟨i, key, context, value, r, merged, r', rfl, hr,
      hwrite, -, hwrites⟩
    · exact (ih (hwrites ▸ hw)).after hallowed
    · rw [hwrites] at hw
      rcases List.mem_append.mp hw with hw | hw
      · exact (ih hw).after hallowed
      · rw [List.mem_singleton] at hw
        subst hw
        exact ⟨t, r, merged, r', ht, hr, rfl, hwrite, .refl⟩

/-! ### Kept versions -/

/-- The replica of a write holds its version, unless there is a write of the key that is
strictly after it. -/
def Kept (s : Traffic) (w : Write) : Prop :=
  ∃ r, s.cluster.replicas[w.node]? = some r ∧ r.id = w.signer ∧
    (w.version ∈ r.store.versions w.key ∨ ∃ u ∈ s.writes, u.key = w.key ∧ w.clock < u.clock)

/-- A version that is no longer held is strictly before one that is held then, and this
was made by a write. -/
lemma Kept.after (hwritten : (s.after m).Holds (s.after m).Written) (h : s.Kept w) :
    (s.after m).Kept w := by
  obtain ⟨r, hr, hid, hkept⟩ := h
  obtain ⟨r', hr', hevolves⟩ := (s.evolves_after m).exists_after hr
  refine ⟨r', hr', hevolves.id.trans hid, ?_⟩
  rcases hkept with hheld | ⟨u, hu, hkey, hlt⟩
  · obtain ⟨pairs, -, hstore⟩ := hevolves.store
    by_cases hstays : w.version ∈ r'.store.versions w.key
    · exact .inl hstays
    · rw [hstore] at hstays
      obtain ⟨v, hv, hlt⟩ := Store.exists_lt_of_not_mem_absorbEach hheld hstays
      have hset := (hwritten.stores r' (List.mem_of_getElem? hr')).versions
        (mergeStable_written _) w.key
      obtain ⟨u, hu, hkey, rfl⟩ := hset v (hstore ▸ hv)
      exact .inr ⟨u, hu, hkey, hlt⟩
  · exact .inr ⟨u, s.writes_subset m hu, hkey, hlt⟩

/-- In a closed cluster every write is kept. -/
theorem kept_of_reaches (hempty : ∀ r ∈ c.replicas, r.store = KeyMap.empty)
    (h : Reaches Closed (start c) s) : ∀ w ∈ s.writes, s.Kept w := by
  induction h with
  | refl => simp [start, writes]
  | @step t m ht hclosed ih =>
    have hwritten := Holds.written hempty (ht.step hclosed)
    intro w hw
    rcases t.writes_after m with hwrites | ⟨i, key, context, value, r, merged, r', -, hr,
      hwrite, hcluster, hwrites⟩
    · exact (ih w (hwrites ▸ hw)).after hwritten
    · rw [hwrites] at hw
      rcases List.mem_append.mp hw with hw | hw
      · exact (ih w hw).after hwritten
      · rw [List.mem_singleton] at hw
        subst hw
        refine ⟨r', ?_, Replica.id_of_write hwrite, .inl ?_⟩
        · rw [hcluster, Cluster.getElem?_modify_self hr]
        · rw [Replica.versions_of_write hwrite]
          exact Replica.mem_of_write hwrite

/-! ### Versions and writes -/

/-- A version of a key is held by a replica, or was answered to a peer or a client. -/
inductive Shown (s : Traffic) (key : String) (v : Version) : Prop where
  | held {r : Replica} (hr : r ∈ s.cluster.replicas) (hv : v ∈ r.store.versions key)
  | fetched {r : Replica} {versions : Siblings} (hr : r ∈ s.cluster.replicas)
      (hfetch : r.fetch key = .ok versions) (hv : v ∈ versions)
  | returned {versions : Siblings} (hreturned : s.Returned key versions) (hv : v ∈ versions)

/-- A version that is shown was made by a write. -/
lemma Shown.exists_write {key : String} {v : Version} (h : s.Shown key v)
    (hwritten : s.Holds s.Written) : ∃ w ∈ s.writes, w.key = key ∧ w.version = v := by
  cases h with
  | held hr hv => exact (hwritten.stores _ hr).versions (mergeStable_written s) key v hv
  | fetched hr hfetch hv =>
    exact (hwritten.stores _ hr key _ (Replica.fetch_eq_ok hfetch)).2 v hv
  | returned hreturned hv =>
    obtain ⟨o, ho, -, reads, herrand⟩ := hreturned
    have hset := hwritten.errands o ho
    rw [herrand] at hset
    exact hset v hv

/-- **Writes and versions.**  From empty stores, whatever contexts clients write in and
however the calls between replicas fare:

* a version that a replica holds, or that is answered to a peer or a client, has the
  clock and the bytes of a write of the key that was accepted before;
* the clock of an accepted write is the context that the client gave, with the counter
  of the replica that accepted it raised by one as far as there is room;
* the replica that accepted a write holds its version, clock and bytes, unless there is
  another write of the key whose clock is strictly after it. -/
theorem versions_of_writes (hempty : ∀ r ∈ c.replicas, r.store = KeyMap.empty)
    (h : Reaches Closed (start c) s) :
    (∀ key v, s.Shown key v → ∃ w ∈ s.writes, w.key = key ∧ v = ⟨w.clock, w.value⟩) ∧
    ∀ w ∈ s.writes, Accepted Closed (start c) s w ∧
      (w.clock.get w.signer).toNat
        = min ((w.context.get w.signer).toNat + 1) (2 ^ 64 - 1) ∧
      (∀ id, id ≠ w.signer → w.clock.get id = w.context.get id) ∧
      ((∀ u ∈ s.writes, u.key = w.key → ¬ w.clock < u.clock) →
        ∃ r, s.cluster.replicas[w.node]? = some r ∧ r.id = w.signer ∧
          ⟨w.clock, w.value⟩ ∈ r.store.versions w.key) := by
  refine ⟨fun key v hshown => ?_, fun w hw => ?_⟩
  · obtain ⟨w, hw, hkey, hversion⟩ := hshown.exists_write (Holds.written hempty h)
    exact ⟨w, hw, hkey, hversion.symm⟩
  · have haccepted := accepted_of_mem h hw
    refine ⟨haccepted, ?_, fun id hid => Clock.get_increment_of_ne w.context hid,
      fun hmaximal => ?_⟩
    · rw [Write.clock, Clock.get_increment_self, Clock.toNat_next_eq_min]
      rfl
    · obtain ⟨r, hr, hid, hheld | ⟨u, hu, hkey, hlt⟩⟩ := kept_of_reaches hempty h w hw
      · exact ⟨r, hr, hid, hheld⟩
      · exact absurd hlt (hmaximal u hu hkey)

/-- Two replicas write apart, the second in a context that has run full.  The first pushes
its store to the second, which accepts a write in the context of its own version: that
one makes way, and the version that came from the first stays, as it does there. -/
theorem versions_of_writes_pair :
    let full : Clock := .ofPairs [("n2", counterLimit)]
    let s := (start (.pair ⟨1, 1⟩)).run
      [.request 0 (.put "k" .empty [1]), .request 1 (.put "k" (.ofPairs [("n2", 1)]) [2]),
        .request 0 .gossip, .call 2 .heard, .request 1 (.put "k" full [3])]
    let first : Version := ⟨.ofPairs [("n1", 1)], [1]⟩
    (∀ r ∈ (Cluster.pair ⟨1, 1⟩).replicas, r.store = KeyMap.empty) ∧
      Reaches Closed (start (.pair ⟨1, 1⟩)) s ∧
      ∃ r, s.cluster.replicas[1]? = some r ∧ r.store.versions "k" = [first, ⟨full, [3]⟩] ∧
        (∃ w ∈ s.writes, w.key = "k" ∧ first = ⟨w.clock, w.value⟩) ∧
        ∃ q, s.cluster.replicas[0]? = some q ∧ first ∈ q.store.versions "k" := by
  intro full s first
  have hempty : ∀ r ∈ (Cluster.pair ⟨1, 1⟩).replicas, r.store = KeyMap.empty := by decide +kernel
  have hreaches : Reaches Closed (start (.pair ⟨1, 1⟩)) s :=
    Reaches.refl.run (by simp [Allows, Closed])
  obtain ⟨r, hr, hheld⟩ : ∃ r, s.cluster.replicas[1]? = some r ∧
      r.store.versions "k" = [first, ⟨full, [3]⟩] := ⟨_, rfl, by decide +kernel⟩
  obtain ⟨hmade, hkept⟩ := versions_of_writes hempty hreaches
  let w : Write := ⟨0, "n1", "k", .empty, [1]⟩
  have hw : w ∈ s.writes := by decide +kernel
  have hmaximal : ∀ u ∈ s.writes, u.key = w.key → ¬ w.clock < u.clock := by
    have hnone : ∀ u ∈ s.writes, u.key = w.key → ¬ w.clock.before u.clock = true := by
      decide +kernel
    exact fun u hu hkey hlt => hnone u hu hkey (Clock.before_iff_lt.mpr hlt)
  obtain ⟨-, -, -, hstays⟩ := hkept w hw
  obtain ⟨q, hq, -, hversion⟩ := hstays hmaximal
  have hshown : s.Shown "k" first :=
    .held (List.mem_of_getElem? hr) (hheld ▸ List.mem_cons_self)
  exact ⟨hempty, hreaches, r, hr, hheld, hmade "k" first hshown, q, hq, hversion⟩

end Traffic

end QuorumStore
