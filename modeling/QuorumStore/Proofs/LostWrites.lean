/-
Writes that are lost, in a closed cluster whose clients write in the context of what
they have read.

A write is signed with the counter of its context, and not with the number of writes
that its replica has accepted.  So a write whose context has not seen an earlier
write of the same replica gets the counter of that write again.

* `Traffic.clock_eq_iff_crosses`: two writes get one clock exactly if the context of
  each is one ahead of the other's at the other's replica, and then the later one
  has overlooked a write of its own replica;
* `Traffic.removed_unseen_iff`: a write removes a version that its client has not seen
  exactly if that version has the counter of the write and nothing else that is new,
  and then it has overlooked a write of its own replica.
-/
import QuorumStore.Proofs.Provenance

namespace QuorumStore

namespace Write

variable {u w e : Write}

/-- A write has the own counter of another one of its key and replica, which its
context does not cover. -/
def Overlooks (w e : Write) : Prop :=
  e.node = w.node ∧ e.key = w.key ∧ e.clock.get w.signer = w.clock.get w.signer ∧
    ¬ e.clock ≤ w.context

/-- Of two contexts each is one ahead of the other at the other's signer, and they
agree on all else. -/
def Crosses (u w : Write) : Prop :=
  w.context.get u.signer = Clock.next (u.context.get u.signer) ∧
    u.context.get w.signer = Clock.next (w.context.get w.signer) ∧
    ∀ id, id ≠ u.signer → id ≠ w.signer → u.context.get id = w.context.get id

/-- Writes with different signers have one clock if their contexts are crossed. -/
lemma clock_eq_iff (hsigner : u.signer ≠ w.signer) : u.clock = w.clock ↔ u.Crosses w := by
  have hu : u.clock.get u.signer = Clock.next (u.context.get u.signer) :=
    Clock.get_increment_self _ _
  have hw : w.clock.get w.signer = Clock.next (w.context.get w.signer) :=
    Clock.get_increment_self _ _
  have hu' : ∀ id, id ≠ u.signer → u.clock.get id = u.context.get id := fun id hid =>
    Clock.get_increment_of_ne _ hid
  have hw' : ∀ id, id ≠ w.signer → w.clock.get id = w.context.get id := fun id hid =>
    Clock.get_increment_of_ne _ hid
  constructor
  · intro h
    refine ⟨?_, ?_, fun id hidu hidw => ?_⟩
    · rw [← hw' _ hsigner, ← h, hu]
    · rw [← hu' _ hsigner.symm, h, hw]
    · rw [← hu' _ hidu, h, hw' _ hidw]
  · rintro ⟨hforward, hback, hother⟩
    refine Clock.ext_get fun id => ?_
    by_cases hidu : id = u.signer
    · subst hidu
      rw [hu, hw' _ hsigner, hforward]
    · by_cases hidw : id = w.signer
      · subst hidw
        rw [hu' _ hidu, hw, hback]
      · rw [hu' _ hidu, hw' _ hidw, hother _ hidu hidw]

end Write

namespace Traffic

variable {s : Traffic} {c : Cluster}

/-! ### Equal clocks -/

/-- Of two writes with one clock the later one was accepted by another replica, and it
has overlooked a write of its own replica that is older than both. -/
lemma exists_overlooked_of_clock_eq (h : s.Chronicle)
    (hdistinct : (s.cluster.replicas.map Replica.id).Nodup) {j k : ℕ} {u w : Write}
    (hjk : j < k) (hu : s.writes[j]? = some u) (hw : s.writes[k]? = some w)
    (hkey : u.key = w.key) (hlimit : w.clock.get w.signer ≠ counterLimit)
    (heq : u.clock = w.clock) :
    u.node ≠ w.node ∧ u.signer ≠ w.signer ∧
      ∃ (i : ℕ) (e : Write), i < j ∧ s.writes[i]? = some e ∧ w.Overlooks e := by
  have hnode : u.node ≠ w.node := fun hnode => h.fresh j k u w hjk hu hw hnode hkey heq.ge
  obtain ⟨r, hr, hrid, -⟩ := h.signed w (List.mem_of_getElem? hw)
  have hsigner : u.signer ≠ w.signer := fun hsigner =>
    hnode (h.node_eq hdistinct (List.mem_of_getElem? hu) hr (hsigner.trans hrid.symm))
  have hcounter : w.clock.get w.signer = Clock.next (w.context.get w.signer) :=
    Clock.get_increment_self _ _
  -- the counter of `w` was already in the context of `u`
  have hread : u.context.get w.signer = Clock.next (w.context.get w.signer) :=
    ((Write.clock_eq_iff hsigner).mp heq).2.1
  have hne : u.context.get w.signer ≠ 0 := hread ▸ Clock.next_ne_zero _
  obtain ⟨i, e, hij, he, hekey, hesigner, -, heget⟩ := h.exists_origin hu hne
  refine ⟨hnode, hsigner, i, e, hij, he, ?_, hekey.trans hkey, ?_, fun hle => ?_⟩
  · exact h.node_eq hdistinct (List.mem_of_getElem? he) hr (hesigner.trans hrid.symm)
  · rw [heget, hread, hcounter]
  · have hbelow := hle w.signer
    rw [heget, hread] at hbelow
    refine Clock.not_next_le (fun hmax => hlimit ?_) hbelow
    rw [hcounter, hmax, Clock.next_counterLimit]

/-- Versions with one clock and different values come from two writes with one clock. -/
lemma exists_writes_of_clock_eq {key : String} {v v' : Version} {held held' : Siblings}
    (hheld : s.Written key held) (hv : v ∈ held) (hheld' : s.Written key held') (hv' : v' ∈ held')
    (hclock : v.clock = v'.clock) (hvalue : v.value ≠ v'.value) :
    ∃ (j k : ℕ) (u w : Write), j < k ∧ s.writes[j]? = some u ∧ s.writes[k]? = some w ∧
      u.key = key ∧ w.key = key ∧ u.clock = w.clock ∧
      (u.version = v ∧ w.version = v' ∨ u.version = v' ∧ w.version = v) := by
  obtain ⟨u, hu, hukey, rfl⟩ := hheld v hv
  obtain ⟨w, hw, hwkey, rfl⟩ := hheld' v' hv'
  obtain ⟨j, hj⟩ := List.mem_iff_getElem?.mp hu
  obtain ⟨k, hk⟩ := List.mem_iff_getElem?.mp hw
  rcases lt_trichotomy j k with hjk | rfl | hkj
  · exact ⟨j, k, u, w, hjk, hj, hk, hukey, hwkey, hclock, .inl ⟨rfl, rfl⟩⟩
  · cases hj.symm.trans hk
    exact absurd rfl hvalue
  · exact ⟨k, j, w, u, hkj, hk, hj, hwkey, hukey, hclock.symm, .inr ⟨rfl, rfl⟩⟩

/-- **Equal clocks.**  Two writes of a key get one clock if and only if they were
accepted by different replicas and their contexts are crossed.  Then the later one
has overlooked an older write of its own replica; so if no write overlooks one, no two
have one clock.  Versions that have one clock and different values come from such
writes. -/
theorem clock_eq_iff_crosses (hempty : ∀ r ∈ c.replicas, r.store = KeyMap.empty)
    (hdistinct : (c.replicas.map Replica.id).Nodup)
    (h : Reaches ReadBeforeWrite (start c) s)
    (hlimit : ∀ w ∈ s.writes, ∀ id, w.clock.get id ≠ counterLimit) :
    (∀ (j k : ℕ) (u w : Write), j < k → s.writes[j]? = some u → s.writes[k]? = some w →
      u.key = w.key →
      (u.clock = w.clock ↔ u.node ≠ w.node ∧ u.Crosses w) ∧
      (u.clock = w.clock →
        ∃ (i : ℕ) (e : Write), i < j ∧ s.writes[i]? = some e ∧ w.Overlooks e)) ∧
    ∀ q ∈ s.cluster.replicas, ∀ r ∈ s.cluster.replicas, ∀ key,
      ∀ v ∈ q.store.versions key, ∀ v' ∈ r.store.versions key,
      v.clock = v'.clock → v.value ≠ v'.value →
      ∃ (j k : ℕ) (u w : Write), j < k ∧ s.writes[j]? = some u ∧ s.writes[k]? = some w ∧
        u.key = key ∧ w.key = key ∧ u.clock = w.clock ∧
        (u.version = v ∧ w.version = v' ∨ u.version = v' ∧ w.version = v) := by
  have hchronicle := chronicle_of_reaches hempty h
  have hdistinct' : (s.cluster.replicas.map Replica.id).Nodup := by
    rw [h.map_id]
    exact hdistinct
  refine ⟨fun j k u w hjk hu hw hkey => ?_, ?_⟩
  · have hlimitw := hlimit w (List.mem_of_getElem? hw) w.signer
    have hoverlooked := exists_overlooked_of_clock_eq hchronicle hdistinct' hjk hu hw hkey hlimitw
    refine ⟨⟨fun heq => ?_, fun ⟨hnode, hcrosses⟩ => ?_⟩, fun heq => (hoverlooked heq).2.2⟩
    · obtain ⟨hnode, hsigner, -⟩ := hoverlooked heq
      exact ⟨hnode, (Write.clock_eq_iff hsigner).mp heq⟩
    · refine (Write.clock_eq_iff fun hsigner => hnode ?_).mpr hcrosses
      obtain ⟨r, hr, hrid, -⟩ := hchronicle.signed w (List.mem_of_getElem? hw)
      exact hchronicle.node_eq hdistinct' (List.mem_of_getElem? hu) hr (hsigner.trans hrid.symm)
  · intro q hq r hr key v hv v' hv' hclock hvalue
    have hwritten := Holds.written hempty h.closed
    have stable := mergeStable_written s
    exact exists_writes_of_clock_eq ((hwritten.stores q hq).versions stable key) hv
      ((hwritten.stores r hr).versions stable key) hv' hclock hvalue

/-- A client may write in the empty context. -/
lemma readBeforeWrite_put_empty {i : ℕ} {key : String} {value : Bytes} :
    s.ReadBeforeWrite (.request i (.put key .empty value)) := by
  refine ⟨by simp [Closed], fun i' key' context' value' hm => ?_⟩
  cases hm
  exact .inl rfl

/-- A client may write in the context of versions that a read has ended with. -/
lemma readBeforeWrite_put {i k reads : ℕ} {key : String} {context : Clock} {value : Bytes}
    {versions : Siblings} (o : Operation) (ho : s.operations[k]? = some o)
    (hreply : o.reply = some (.ok (.get versions))) (herrand : o.errand = .get key reads versions)
    (hcontext : context = versions.context) :
    s.ReadBeforeWrite (.request i (.put key context value)) := by
  refine ⟨by simp [Closed], fun i' key' context' value' hm => ?_⟩
  cases hm
  exact .inr ⟨versions, ⟨o, List.mem_of_getElem? ho, hreply, reads, herrand⟩, hcontext⟩

/-- Each of two replicas accepts a write; then each accepts a write in the context of
what was read at the other one. -/
def crossedWrites : List Move :=
  [.request 0 (.put "k" .empty [1]), .request 1 (.put "k" .empty [2]),
    .request 0 (.get "k"), .request 1 (.get "k"),
    .request 0 (.put "k" (.ofPairs [("n2", 1)]) [3]),
    .request 1 (.put "k" (.ofPairs [("n1", 1)]) [4])]

lemma reaches_crossedWrites :
    Reaches ReadBeforeWrite (start (.pair ⟨1, 1⟩)) ((start (.pair ⟨1, 1⟩)).run crossedWrites) := by
  refine Reaches.refl.run ?_
  simp only [crossedWrites, Allows]
  refine ⟨readBeforeWrite_put_empty, readBeforeWrite_put_empty, by simp [ReadBeforeWrite, Closed],
    by simp [ReadBeforeWrite, Closed], ?_, ?_, trivial⟩
  · exact readBeforeWrite_put ⟨1, ⟨1, 1⟩, .get "k" 1 [⟨.ofPairs [("n2", 1)], [2]⟩],
      [⟨"localhost", 8000⟩], []⟩ (k := 3) rfl rfl rfl rfl
  · exact readBeforeWrite_put ⟨0, ⟨1, 1⟩, .get "k" 1 [⟨.ofPairs [("n1", 1)], [1]⟩],
      [⟨"localhost", 8001⟩], []⟩ (k := 2) rfl rfl rfl rfl

/-- The two last of these writes have one clock and different values, and each replica
holds its own. -/
theorem clock_eq_of_crossedWrites :
    let s := (start (.pair ⟨1, 1⟩)).run crossedWrites
    (∀ r ∈ (Cluster.pair ⟨1, 1⟩).replicas, r.store = KeyMap.empty) ∧
      ((Cluster.pair ⟨1, 1⟩).replicas.map Replica.id).Nodup ∧
      Reaches ReadBeforeWrite (start (.pair ⟨1, 1⟩)) s ∧
      (∀ w ∈ s.writes, ∀ p ∈ w.clock.entries, p.2 ≠ counterLimit) ∧
      ∃ u w q r, s.writes[2]? = some u ∧ s.writes[3]? = some w ∧
        u.key = w.key ∧ u.clock = w.clock ∧ u.value ≠ w.value ∧
        s.cluster.replicas[0]? = some q ∧ u.version ∈ q.store.versions u.key ∧
        s.cluster.replicas[1]? = some r ∧ w.version ∈ r.store.versions w.key := by
  refine ⟨by decide +kernel, by decide +kernel, reaches_crossedWrites, by decide +kernel,
    _, _, _, _, rfl, rfl, rfl, ?_, ?_, rfl, ?_, rfl, ?_⟩
  all_goals decide +kernel

/-- The later of the two writes has overlooked the second write. -/
theorem overlooked_of_crossedWrites :
    let s := (start (.pair ⟨1, 1⟩)).run crossedWrites
    ∃ (u w : Write), s.writes[2]? = some u ∧ s.writes[3]? = some w ∧ u.clock = w.clock ∧
      u.Crosses w ∧ ∃ (i : ℕ) (e : Write), i < 2 ∧ s.writes[i]? = some e ∧ w.Overlooks e := by
  intro s
  have hempty : ∀ r ∈ (Cluster.pair ⟨1, 1⟩).replicas, r.store = KeyMap.empty := by decide +kernel
  have hdistinct : ((Cluster.pair ⟨1, 1⟩).replicas.map Replica.id).Nodup := by decide +kernel
  have hlimit : ∀ w ∈ s.writes, ∀ id, w.clock.get id ≠ counterLimit := by
    have hentries : ∀ w ∈ s.writes, ∀ p ∈ w.clock.entries, p.2 ≠ counterLimit := by
      decide +kernel
    intro w hw id hid
    refine hentries w hw (id, counterLimit) ((Clock.mem_entries_iff _).mpr ⟨?_, hid⟩) rfl
    decide
  let u : Write := ⟨0, "n1", "k", .ofPairs [("n2", 1)], [3]⟩
  let w : Write := ⟨1, "n2", "k", .ofPairs [("n1", 1)], [4]⟩
  have hclock : u.clock = w.clock := by decide +kernel
  have htwo := (clock_eq_iff_crosses hempty hdistinct reaches_crossedWrites hlimit).1
    2 3 u w (by decide) rfl rfl rfl
  exact ⟨u, w, rfl, rfl, hclock, (htwo.1.mp hclock).2, htwo.2 hclock⟩

/-! ### Removed versions -/

/-- A version that has the counter of a write, which its context does not have, covers a
write of the same replica that this write overlooks. -/
lemma exists_overlooked_of_get_eq (h : s.Chronicle)
    (hdistinct : (s.cluster.replicas.map Replica.id).Nodup) {i : ℕ} {key : String}
    {context : Clock} {value : Bytes} {r : Replica} {v : Version} {held : Siblings}
    (hr : s.cluster.replicas[i]? = some r) (hheld : s.Written key held) (hv : v ∈ held)
    (hlimit : context.get r.id ≠ counterLimit)
    (hown : v.clock.get r.id = Clock.next (context.get r.id)) :
    ∃ e ∈ s.writes, e.clock ≤ v.clock ∧ Write.Overlooks ⟨i, r.id, key, context, value⟩ e := by
  obtain ⟨w, hw, hkey, rfl⟩ := hheld v hv
  have hne : w.clock.get r.id ≠ 0 := hown ▸ Clock.next_ne_zero _
  obtain ⟨e, he, hekey, hsigner, hle, hget⟩ := h.exists_origin_of_clock hw hne
  have hcounter : e.clock.get r.id = Clock.next (context.get r.id) := hget.trans hown
  refine ⟨e, he, hle, h.node_eq hdistinct he hr hsigner, hekey.trans hkey, ?_, ?_⟩
  · exact hcounter.trans (Clock.get_increment_self context r.id).symm
  · exact fun hbelow => Clock.not_next_le hlimit (hcounter ▸ hbelow r.id)

/-- A replica that accepts a write is changed by it. -/
lemma getElem?_after_put {i : ℕ} {key : String} {context : Clock} {value : Bytes}
    {r r' : Replica} {merged : Siblings} (hr : s.cluster.replicas[i]? = some r)
    (hwrite : r.write key context value = .ok (merged, r')) :
    (s.after (.request i (.put key context value))).cluster.replicas[i]? = some r' := by
  have hbegin : r.begin i (.put key context value)
      = some (⟨i, r.quorum, .put ⟨i, r.id, key, context, value⟩ merged 1, r.peers, []⟩, r') := by
    rw [Replica.begin, hwrite]
  change (s.ask i (.put key context value)).cluster.replicas[i]? = some r'
  simp [ask, hr, hbegin, Cluster.modify]

/-- **Removed versions.**  When a replica accepts a write, a version that it holds stays
if and only if it is concurrent to the new one.  It is removed although the context
does not cover it if and only if it has the own counter of the new version and no
other counter above the context; then the write has overlooked a write of the same
replica that the version covers.  So a write that overlooks none removes only what
its client has seen. -/
theorem removed_unseen_iff (hempty : ∀ r ∈ c.replicas, r.store = KeyMap.empty)
    (hdistinct : (c.replicas.map Replica.id).Nodup)
    (h : Reaches ReadBeforeWrite (start c) s) {i : ℕ} {key : String} {context : Clock}
    {value : Bytes} {r r' : Replica} {merged : Siblings} (hr : s.cluster.replicas[i]? = some r)
    (hwrite : r.write key context value = .ok (merged, r')) :
    (s.after (.request i (.put key context value))).cluster.replicas[i]? = some r' ∧
    ∀ v ∈ r.store.versions key,
      (v ∈ r'.store.versions key ↔ v.clock.concurrent (context.increment r.id) = true) ∧
      (v ∉ r'.store.versions key ∧ ¬ v.clock ≤ context ↔
        context.get r.id ≠ counterLimit ∧ v.clock.get r.id = Clock.next (context.get r.id) ∧
          ∀ id, id ≠ r.id → v.clock.get id ≤ context.get id) ∧
      (v ∉ r'.store.versions key → ¬ v.clock ≤ context →
        ∃ e ∈ s.writes, e.clock ≤ v.clock ∧
          Write.Overlooks ⟨i, r.id, key, context, value⟩ e) := by
  have hchronicle := chronicle_of_reaches hempty h
  have hdistinct' : (s.cluster.replicas.map Replica.id).Nodup := by
    rw [h.map_id]
    exact hdistinct
  refine ⟨getElem?_after_put hr hwrite, fun v hv => ?_⟩
  have hnew : ¬ context.increment r.id ≤ v.clock := fun hle =>
    (Replica.write_eq_ok hwrite).1 ⟨v, hv, hle⟩
  have hstays := Replica.mem_versions_of_write hwrite hv
  have hunseen : v ∉ r'.store.versions key ∧ ¬ v.clock ≤ context ↔
      context.get r.id ≠ counterLimit ∧ v.clock.get r.id = Clock.next (context.get r.id) ∧
        ∀ id, id ≠ r.id → v.clock.get id ≤ context.get id := by
    rw [hstays, not_not, Clock.le_increment_and_not_le_iff]
  refine ⟨?_, hunseen, fun hremoved hnot => ?_⟩
  · rw [hstays, Clock.concurrent_iff]
    exact (and_iff_left hnew).symm
  · obtain ⟨hlimit, hown, -⟩ := hunseen.mp ⟨hremoved, hnot⟩
    have hheld := ((Holds.written hempty h.closed).stores r (List.mem_of_getElem? hr)).versions
      (mergeStable_written s) key
    exact exists_overlooked_of_get_eq hchronicle hdistinct' hr hheld hv hlimit hown

/-- The second replica accepts two writes of a client that reads there, then one of a
client that has read at the first replica, and pushes its store.  The first replica
then holds the last two as concurrent versions. -/
def siblingWrites : List Move :=
  [.request 0 (.put "k" .empty [1]), .request 0 (.get "k"),
    .request 1 (.put "k" .empty [2]), .request 1 (.get "k"),
    .request 1 (.put "k" (.ofPairs [("n2", 1)]) [3]), .request 1 (.get "k"),
    .request 1 (.put "k" (.ofPairs [("n1", 1)]) [4]), .request 1 .gossip, .call 7 .heard]

lemma reaches_siblingWrites :
    Reaches ReadBeforeWrite (start (.pair ⟨1, 1⟩)) ((start (.pair ⟨1, 1⟩)).run siblingWrites) := by
  refine Reaches.refl.run ?_
  simp only [siblingWrites, Allows]
  refine ⟨readBeforeWrite_put_empty, by simp [ReadBeforeWrite, Closed],
    readBeforeWrite_put_empty, by simp [ReadBeforeWrite, Closed], ?_,
    by simp [ReadBeforeWrite, Closed], ?_, by simp [ReadBeforeWrite, Closed],
    by simp [ReadBeforeWrite, Closed], trivial⟩
  · exact readBeforeWrite_put ⟨1, ⟨1, 1⟩, .get "k" 1 [⟨.ofPairs [("n2", 1)], [2]⟩],
      [⟨"localhost", 8000⟩], []⟩ (k := 3) rfl rfl rfl rfl
  · exact readBeforeWrite_put ⟨0, ⟨1, 1⟩, .get "k" 1 [⟨.ofPairs [("n1", 1)], [1]⟩],
      [⟨"localhost", 8001⟩], []⟩ (k := 1) rfl rfl rfl rfl

/-- The first replica then accepts a write in the context of what was read at the
second before its last write, and removes the version of that last write. -/
theorem removed_of_siblingWrites :
    let s := (start (.pair ⟨1, 1⟩)).run siblingWrites
    let context : Clock := .ofPairs [("n2", 2)]
    let unseen : Version := ⟨.ofPairs [("n1", 1), ("n2", 1)], [4]⟩
    (∀ r ∈ (Cluster.pair ⟨1, 1⟩).replicas, r.store = KeyMap.empty) ∧
      ((Cluster.pair ⟨1, 1⟩).replicas.map Replica.id).Nodup ∧
      Reaches ReadBeforeWrite (start (.pair ⟨1, 1⟩)) s ∧
      s.ReadBeforeWrite (.request 0 (.put "k" context [5])) ∧
      ∃ r merged r', s.cluster.replicas[0]? = some r ∧
        r.write "k" context [5] = .ok (merged, r') ∧
        unseen ∈ r.store.versions "k" ∧ unseen ∉ r'.store.versions "k" ∧
        ¬ unseen.clock ≤ context := by
  refine ⟨by decide +kernel, by decide +kernel, reaches_siblingWrites, ?_, _, _, _, rfl, rfl, ?_,
    ?_, fun hle => absurd (hle "n1") (by decide +kernel)⟩
  · exact readBeforeWrite_put ⟨1, ⟨1, 1⟩, .get "k" 1 [⟨.ofPairs [("n2", 2)], [3]⟩],
      [⟨"localhost", 8000⟩], []⟩ (k := 5) rfl rfl rfl rfl
  · decide +kernel
  · decide +kernel

/-- That write overlooks the first write of its replica. -/
theorem overlooked_of_siblingWrites :
    let s := (start (.pair ⟨1, 1⟩)).run siblingWrites
    let context : Clock := .ofPairs [("n2", 2)]
    ∃ r merged r', s.cluster.replicas[0]? = some r ∧
      r.write "k" context [5] = .ok (merged, r') ∧
      ∃ v ∈ r.store.versions "k", v ∉ r'.store.versions "k" ∧
        ∃ e ∈ s.writes, e.clock ≤ v.clock ∧
          Write.Overlooks ⟨0, r.id, "k", context, [5]⟩ e := by
  intro s context
  have hempty : ∀ r ∈ (Cluster.pair ⟨1, 1⟩).replicas, r.store = KeyMap.empty := by decide +kernel
  have hdistinct : ((Cluster.pair ⟨1, 1⟩).replicas.map Replica.id).Nodup := by decide +kernel
  let unseen : Version := ⟨.ofPairs [("n1", 1), ("n2", 1)], [4]⟩
  obtain ⟨r, merged, r', hr, hwrite, hheld, hremoved, hunseen⟩ :
      ∃ r merged r', s.cluster.replicas[0]? = some r ∧
        r.write "k" context [5] = .ok (merged, r') ∧ unseen ∈ r.store.versions "k" ∧
        unseen ∉ r'.store.versions "k" ∧ ¬ unseen.clock ≤ context :=
    ⟨_, _, _, rfl, rfl, by decide +kernel, by decide +kernel,
      fun hle => absurd (hle "n1") (by decide +kernel)⟩
  have hoverlooked := ((removed_unseen_iff hempty hdistinct reaches_siblingWrites hr hwrite).2
    unseen hheld).2.2 hremoved hunseen
  exact ⟨r, merged, r', hr, hwrite, unseen, hheld, hremoved, hoverlooked⟩

end Traffic

end QuorumStore
