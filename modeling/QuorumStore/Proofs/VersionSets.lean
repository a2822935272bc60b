/-
The version sets of a closed cluster, in which replicas are asked by clients only
and merge what other replicas send.

A property that merges preserve is carried jointly by the stores, by the messages
on their way and by what operations have got so far (`Traffic.Holds.after`).
Being an antichain is such a property, so in every state that is reached from
empty stores each version set that is held, sent or answered is a non-empty
antichain (`Traffic.wellFormed_of_reaches`).
-/
import QuorumStore.Proofs.Operations

namespace QuorumStore

/-- A version set as a replica is to hold it: there is a version, no version is
older than another, and no counter of zero is stored. -/
structure Siblings.WellFormed (s : Siblings) : Prop where
  ne_nil : s ≠ []
  antichain : s.Antichain
  nodup : s.clocks.Nodup
  nonzero : ∀ v ∈ s, ∀ p ∈ v.clock.entries, p.2 ≠ 0

/-- A non-empty antichain is well-formed: concurrent clocks differ, and clocks
store no zero. -/
lemma Siblings.Antichain.wellFormed {s : Siblings} (h : s.Antichain) (hne : s ≠ []) :
    s.WellFormed where
  ne_nil := hne
  antichain := h
  nodup := h.nodup_clocks
  nonzero v _ p hp := v.clock.nonzero p hp

variable {Good : String → Siblings → Prop}

/-! ### A property of all version sets -/

/-- What an operation has got so far has a property. -/
def Errand.Holds (Good : String → Siblings → Prop) : Errand → Prop
  | .put write merged _ => merged ≠ [] ∧ Good write.key merged
  | .get key _ versions => Good key versions
  | .gossip snapshot _ => snapshot.Holds Good

/-- What a message carries is not empty and has a property. -/
def Letter.Holds (Good : String → Siblings → Prop) (l : Letter) : Prop :=
  ∀ key versions, l.Carries key versions → versions ≠ [] ∧ Good key versions

/-- All version sets of a cluster have a property: those in stores, those that
operations have got, and those in messages. -/
structure Traffic.Holds (Good : String → Siblings → Prop) (s : Traffic) : Prop where
  stores : ∀ r ∈ s.cluster.replicas, r.store.Holds Good
  errands : ∀ o ∈ s.operations, o.errand.Holds Good
  letters : ∀ l ∈ s.letters, l.Holds Good

/-- A property that follows from one that all version sets have is had by all. -/
lemma Traffic.Holds.mono {Good' : String → Siblings → Prop} {s : Traffic} (h : s.Holds Good)
    (hmono : ∀ key versions, Good key versions → Good' key versions) : s.Holds Good' where
  stores r hr key versions hget := (h.stores r hr key versions hget).imp_right (hmono _ _)
  errands o ho := by
    have hold := h.errands o ho
    revert hold
    cases o.errand with
    | put write merged acks => exact fun hold => hold.imp_right (hmono _ _)
    | get key reads versions => exact hmono key versions
    | gossip snapshot reached =>
      exact fun hold key versions hget => (hold key versions hget).imp_right (hmono _ _)
  letters l hl key versions hcarries := (h.letters l hl key versions hcarries).imp_right (hmono _ _)

namespace Errand

variable {i : ℕ} {r : Replica} {peer : Endpoint} {c : Cluster} {fate : Fate}

/-- What an operation has got is what its messages carry. -/
lemma Holds.letter {x : Errand} (h : x.Holds Good) {l : Letter} (hl : l ∈ x.letter? peer) :
    l.Holds Good := by
  cases x with
  | put write merged acks =>
    cases hl
    rintro key versions ⟨rfl, rfl⟩
    exact h
  | get key reads versions => cases hl
  | gossip snapshot reached =>
    cases hl
    exact h

/-- Turning to a peer whose store has the property keeps it. -/
lemma Holds.ask (stable : Siblings.MergeStable Good) {x x' : Errand} {f : Fated}
    (h : x.Holds Good) (hstores : ∀ q ∈ c.replicas, q.store.Holds Good)
    (hask : x.ask (Fated.surroundings i r) peer ⟨c, [fate]⟩ = (.ok x', f)) : x'.Holds Good := by
  cases x with
  | put write merged acks =>
    obtain ⟨-, rfl, -⟩ := ask_put_eq_ok hask
    exact h
  | get key reads versions =>
    obtain ⟨-, j, q, remote, -, hq, hget, rfl⟩ := ask_get_eq_ok hask
    exact stable.merge h (hstores q (List.mem_of_getElem? hq) key remote hget).2
  | gossip snapshot reached =>
    cases ask_gossip_eq_ok hask
    exact h

end Errand

namespace Traffic

variable {s t : Traffic} {m : Move}

/-! ### One move -/

/-- The operations after a move in a closed cluster have the property. -/
lemma Holds.errands_after (stable : Siblings.MergeStable Good) (h : s.Holds Good)
    (hwrite : ∀ w ∈ (s.after m).writes, Good w.key [w.version]) :
    ∀ o ∈ (s.after m).operations, o.errand.Holds Good := by
  intro o ho
  obtain ⟨k, hk⟩ := List.mem_iff_getElem?.mp ho
  cases continues hk with
  | kept hkept => exact h.errands o (List.mem_of_getElem? hkept)
  | begun hm _ hr hbegin hafter =>
    have hstore := h.stores _ (List.mem_of_getElem? hr)
    rcases Replica.begin_eq_some hbegin with
      ⟨key, context, value, merged, -, hput, rfl⟩ | ⟨-, ⟨key, -, rfl⟩ | ⟨-, rfl⟩⟩
    · obtain ⟨-, rfl, -⟩ := Replica.write_eq_ok hput
      refine ⟨List.ne_nil_of_mem (Replica.mem_of_write hput),
        stable.merge (hstore.versions stable key) (hwrite _ ?_)⟩
      exact List.mem_filterMap.mpr ⟨_, ho, rfl⟩
    · exact hstore.versions stable key
    · exact hstore
  | @called fate o peer rest answer f hm hcalled _ _ hask hafter =>
    have hold := h.errands o (List.mem_of_getElem? hcalled)
    cases answer with
    | error e => exact hold
    | ok x => exact hold.ask stable h.stores hask

/-- The messages after a move have the property. -/
lemma Holds.letters_after (h : s.Holds Good) : ∀ l ∈ (s.after m).letters, l.Holds Good := by
  cases m with
  | request i request =>
    change ∀ l ∈ (s.ask i request).letters, l.Holds Good
    rcases s.ask_cases i request with ⟨r, r', o, -, -, hask⟩ | ⟨-, hask⟩
    · rw [hask]
      exact h.letters
    · rw [hask]
      exact h.letters
  | call k fate =>
    change ∀ l ∈ (s.call k fate).letters, l.Holds Good
    rcases s.call_cases k fate with hcall | ⟨o, peer, rest, answer, f, ho, -, -, -, hcall⟩
    · rw [hcall]
      exact h.letters
    · rw [hcall]
      intro l hl
      rcases List.mem_append.mp hl with hl | hl
      · exact h.letters l hl
      · exact (h.errands o (List.mem_of_getElem? ho)).letter (Option.mem_toList.mp hl)
  | arrival j =>
    change ∀ l ∈ (s.arrive j).letters, l.Holds Good
    rcases s.arrive_cases j with harrive | ⟨l, -, harrive⟩
    · rw [harrive]
      exact h.letters
    · rw [harrive]
      exact h.letters
  | _ => exact h.letters

/-- A move in a closed cluster keeps a property that merges preserve, if the
versions of accepted writes have it. -/
theorem Holds.after (stable : Siblings.MergeStable Good) (h : s.Holds Good)
    (hclosed : s.Closed m) (hwrite : ∀ w ∈ (s.after m).writes, Good w.key [w.version]) :
    (s.after m).Holds Good where
  stores r' hr' := by
    obtain ⟨j, hj⟩ := List.mem_iff_getElem?.mp hr'
    obtain ⟨r, hr, hevolves⟩ := (s.evolves_after m).exists_before hj
    refine hevolves.holds stable (h.stores r (List.mem_of_getElem? hr)) ?_
    rintro key versions (⟨l, hl, hcarries⟩ | ⟨w, hw, rfl, rfl⟩ | ⟨i, rfl⟩ | ⟨i, pushed, rfl, -⟩)
    · exact (h.letters_after l hl key versions hcarries).2
    · exact hwrite w hw
    · exact absurd rfl (hclosed.1 i key versions)
    · exact absurd rfl (hclosed.2 i pushed)
  errands := h.errands_after stable hwrite
  letters := h.letters_after

/-- Nothing is held where nothing has happened and the stores are empty. -/
lemma holds_start {c : Cluster} (h : ∀ r ∈ c.replicas, r.store = KeyMap.empty) :
    (start c).Holds Good where
  stores r hr := h r hr ▸ Store.holds_empty Good
  errands := by simp [start]
  letters := by simp [start]

/-! ### Every reachable state -/

/-- A closed cluster of antichains stays one. -/
lemma Holds.antichain (h : s.Holds fun _ versions => versions.Antichain)
    (hreaches : Reaches Closed s t) : t.Holds fun _ versions => versions.Antichain := by
  induction hreaches with
  | refl => exact h
  | step _ hclosed ih =>
    exact ih.after Siblings.mergeStable_antichain hclosed fun w _ =>
      Siblings.antichain_singleton w.version

/-- From empty stores a cluster that is closed is one of antichains. -/
lemma holds_antichain_of_reaches {c : Cluster} (hempty : ∀ r ∈ c.replicas, r.store = KeyMap.empty)
    (h : Reaches Closed (start c) s) : s.Holds fun _ versions => versions.Antichain :=
  (holds_start hempty).antichain h

/-- **Version sets of a closed cluster.**  From empty stores, whatever clients ask
for and however the calls between replicas fare, every version set that a replica
holds, sends, puts into a push, answers to a peer or returns to a client is
well-formed. -/
theorem wellFormed_of_reaches {c : Cluster} (hempty : ∀ r ∈ c.replicas, r.store = KeyMap.empty)
    (h : Reaches Closed (start c) s) :
    (∀ r ∈ s.cluster.replicas, ∀ key versions,
      r.store.get? key = some versions → versions.WellFormed) ∧
    (∀ l ∈ s.letters, ∀ key versions, l.Carries key versions → versions.WellFormed) ∧
    (∀ o ∈ s.operations, ∀ snapshot reached, o.errand = .gossip snapshot reached →
      ∀ key versions, snapshot.get? key = some versions → versions.WellFormed) ∧
    (∀ r ∈ s.cluster.replicas, ∀ key versions,
      r.fetch key = .ok versions → versions.WellFormed) ∧
    ∀ key versions, s.Returned key versions → versions.WellFormed := by
  have hholds := holds_antichain_of_reaches hempty h
  have hstore : ∀ r ∈ s.cluster.replicas, ∀ key versions,
      r.store.get? key = some versions → versions.WellFormed := fun r hr key versions hget =>
    have hset := hholds.stores r hr key versions hget
    hset.2.wellFormed hset.1
  refine ⟨hstore, fun l hl key versions hcarries => ?_,
    fun o ho snapshot reached heq key versions hget => ?_,
    fun r hr key versions hfetch => hstore r hr key versions (Replica.fetch_eq_ok hfetch), ?_⟩
  · have hset := hholds.letters l hl key versions hcarries
    exact hset.2.wellFormed hset.1
  · have hsnapshot := hholds.errands o ho
    rw [heq] at hsnapshot
    have hset := hsnapshot key versions hget
    exact hset.2.wellFormed hset.1
  · rintro key versions ⟨o, ho, hreply, reads, heq⟩
    have hset := hholds.errands o ho
    rw [heq] at hset
    refine Siblings.Antichain.wellFormed hset ?_
    rintro rfl
    simp [Operation.reply, heq, Errand.outcome] at hreply

/-- Two replicas write apart, and one pushes its store to the other.  What the other
then reads are two concurrent versions. -/
theorem wellFormed_pair :
    let s := (start (.pair ⟨1, 1⟩)).run
      [.request 0 (.put "k" .empty [1]), .request 1 (.put "k" .empty [2]), .request 0 .gossip,
        .call 2 .heard, .request 1 (.get "k")]
    let read : Siblings :=
      [⟨.ofPairs [("n2", 1)], [2]⟩, ⟨.ofPairs [("n1", 1)], [1]⟩]
    (∀ r ∈ (Cluster.pair ⟨1, 1⟩).replicas, r.store = KeyMap.empty) ∧
      Reaches Closed (start (.pair ⟨1, 1⟩)) s ∧ s.Returned "k" read ∧ read.WellFormed := by
  intro s read
  have hempty : ∀ r ∈ (Cluster.pair ⟨1, 1⟩).replicas, r.store = KeyMap.empty := by decide +kernel
  have hreaches : Reaches Closed (start (.pair ⟨1, 1⟩)) s := by
    refine Reaches.refl.run ?_
    simp [Allows, Closed]
  have hreturned : s.Returned "k" read :=
    ⟨⟨1, ⟨1, 1⟩, .get "k" 1 read, [⟨"localhost", 8000⟩], []⟩, by
      rw [List.mem_iff_getElem?]
      exact ⟨3, rfl⟩, rfl, 1, rfl⟩
  exact ⟨hempty, hreaches, hreturned,
    (wellFormed_of_reaches hempty hreaches).2.2.2.2 "k" read hreturned⟩

end Traffic

end QuorumStore
