/-
Where versions come from, in a closed cluster whose clients write in the context of
what they have read.

* `Traffic.Holds.written`: every version that is held, sent or answered was made by
  an accepted write of its key;
* `Traffic.Chronicle`: what is known of the accepted writes, in the order in which
  they were accepted: the replica of a write knows of it ever after, so it accepts no
  write that an earlier one of its own covers, and each counter of a context was
  read from an earlier write;
* `Traffic.Chronicle.exists_origin`: so each counter of a context goes back to an
  earlier write by its owner that the context covers.
-/
import QuorumStore.Proofs.VersionSets

namespace QuorumStore

namespace Traffic

variable {s t : Traffic} {m : Move} {w : Write}

/-! ### Accepted writes -/

/-- A move leaves the list of accepted writes or appends one. -/
lemma writes_prefix (s : Traffic) (m : Move) : s.writes <+: (s.after m).writes := by
  rcases s.writes_after m with hwrites | ⟨_, _, _, _, _, _, _, -, -, -, -, hwrites⟩
  · rw [hwrites]
  · rw [hwrites]
    exact List.prefix_append _ _

lemma writes_subset (s : Traffic) (m : Move) : s.writes ⊆ (s.after m).writes :=
  (s.writes_prefix m).subset

/-- All versions of a set were made by accepted writes of the key. -/
def Written (s : Traffic) (key : String) (versions : Siblings) : Prop :=
  ∀ v ∈ versions, ∃ w ∈ s.writes, w.key = key ∧ w.version = v

lemma Written.after {key : String} {versions : Siblings} (h : s.Written key versions) (m : Move) :
    (s.after m).Written key versions := by
  intro v hv
  obtain ⟨w, hw, hkey, hversion⟩ := h v hv
  exact ⟨w, s.writes_subset m hw, hkey, hversion⟩

lemma mergeStable_written (s : Traffic) : Siblings.MergeStable s.Written :=
  Siblings.mergeStable_forall_mem fun key v => ∃ w ∈ s.writes, w.key = key ∧ w.version = v

/-- In a closed cluster every version was made by an accepted write. -/
lemma Holds.written {c : Cluster} (hempty : ∀ r ∈ c.replicas, r.store = KeyMap.empty)
    (h : Reaches Closed (start c) s) : s.Holds s.Written := by
  induction h with
  | refl => exact holds_start hempty
  | @step t m _ hclosed ih =>
    have hlater : t.Holds (t.after m).Written := ih.mono fun _ _ hwritten => hwritten.after m
    refine hlater.after (mergeStable_written _) hclosed fun w hw v hv => ?_
    rw [List.mem_singleton] at hv
    exact ⟨w, hw, rfl, hv.symm⟩

/-! ### The chronicle -/

/-- What is known of the accepted writes, which are numbered in the order in which
they were accepted. -/
structure Chronicle (s : Traffic) : Prop where
  /-- The replica of a write has signed it, and knows of it. -/
  signed : ∀ w ∈ s.writes, ∃ r, s.cluster.replicas[w.node]? = some r ∧ r.id = w.signer ∧
    r.store.Knows w.key w.clock
  /-- No write is covered by an earlier one that its own replica had accepted. -/
  fresh : ∀ (j k : ℕ) (u w : Write), j < k → s.writes[j]? = some u → s.writes[k]? = some w →
    u.node = w.node → u.key = w.key → ¬ w.clock ≤ u.clock
  /-- Each counter of a context is that of an earlier write below it. -/
  read : ∀ (k : ℕ) (w : Write) (id : String), s.writes[k]? = some w → w.context.get id ≠ 0 →
    ∃ (j : ℕ) (u : Write), j < k ∧ s.writes[j]? = some u ∧ u.key = w.key ∧
      u.clock ≤ w.context ∧ u.clock.get id = w.context.get id

lemma chronicle_start (c : Cluster) : (start c).Chronicle where
  signed := by simp [start, writes]
  fresh := by simp [start, writes]
  read := by simp [start, writes]

/-- A write that was known as signed still is. -/
lemma signed_after (h : s.Chronicle) (m : Move) (hw : w ∈ s.writes) :
    ∃ r, (s.after m).cluster.replicas[w.node]? = some r ∧ r.id = w.signer ∧
      r.store.Knows w.key w.clock := by
  obtain ⟨r, hr, hid, hknows⟩ := h.signed w hw
  obtain ⟨r', hr', hevolves⟩ := (s.evolves_after m).exists_after hr
  exact ⟨r', hr', hevolves.id.trans hid, hevolves.knows hknows⟩

/-- A context that was read has its counters from accepted writes. -/
lemma exists_of_returned {key : String} {versions : Siblings} {id : String}
    (hholds : s.Holds s.Written) (h : s.Returned key versions)
    (hid : versions.context.get id ≠ 0) :
    ∃ j u, j < s.writes.length ∧ s.writes[j]? = some u ∧ u.key = key ∧
      u.clock ≤ versions.context ∧ u.clock.get id = versions.context.get id := by
  obtain ⟨v, hv, hget⟩ := Siblings.exists_get_context hid
  obtain ⟨o, ho, -, reads, herrand⟩ := h
  have hwritten := hholds.errands o ho
  rw [herrand] at hwritten
  obtain ⟨u, hu, hkey, rfl⟩ := hwritten v hv
  obtain ⟨j, hj⟩ := List.mem_iff_getElem?.mp hu
  have hlt : j < s.writes.length := (List.getElem?_eq_some_iff.mp hj).1
  exact ⟨j, u, hlt, hj, hkey, Siblings.clock_le_context hv, hget⟩

/-- A write that is accepted carries the chronicle on. -/
lemma Chronicle.append {i : ℕ} {key : String} {context : Clock} {value : Bytes} {r r' : Replica}
    {merged : Siblings} (h : s.Chronicle) (hholds : s.Holds s.Written)
    (hr : s.cluster.replicas[i]? = some r) (hwrite : r.write key context value = .ok (merged, r'))
    (hcontext : context = Clock.empty ∨
      ∃ versions, s.Returned key versions ∧ context = versions.context)
    (hcluster : (s.after m).cluster = s.cluster.modify i fun _ => r')
    (hwrites : (s.after m).writes = s.writes ++ [⟨i, r.id, key, context, value⟩]) :
    (s.after m).Chronicle where
  signed w hw := by
    rw [hwrites] at hw
    rcases List.mem_append.mp hw with hw | hw
    · exact signed_after h m hw
    · rw [List.mem_singleton] at hw
      subst hw
      refine ⟨r', ?_, Replica.id_of_write hwrite, Replica.knows_of_write hwrite⟩
      rw [hcluster, Cluster.getElem?_modify_self hr]
  fresh j k u w hjk hu hw hnode hkey := by
    rw [hwrites] at hu hw
    rcases getElem?_concat_cases hw with ⟨hk, hw⟩ | ⟨hk, rfl⟩
    · rw [List.getElem?_append_left (hjk.trans hk)] at hu
      exact h.fresh j k u w hjk hu hw hnode hkey
    · rw [List.getElem?_append_left (hk ▸ hjk)] at hu
      obtain ⟨q, hq, -, hknows⟩ := h.signed u (List.mem_of_getElem? hu)
      rw [hnode] at hq
      cases hr.symm.trans hq
      rw [hkey] at hknows
      obtain ⟨hnew, -⟩ := Replica.write_eq_ok hwrite
      exact fun hle => hnew (hknows.anti hle)
  read k w id hw hid := by
    rw [hwrites] at hw ⊢
    rcases getElem?_concat_cases hw with ⟨hk, hw⟩ | ⟨hk, rfl⟩
    · obtain ⟨j, u, hjk, hu, hrest⟩ := h.read k w id hw hid
      exact ⟨j, u, hjk, by rwa [List.getElem?_append_left (hjk.trans hk)], hrest⟩
    · rcases hcontext with rfl | ⟨versions, hreturned, rfl⟩
      · exact absurd (Clock.get_empty id) hid
      · obtain ⟨j, u, hj, hu, hrest⟩ := exists_of_returned hholds hreturned hid
        exact ⟨j, u, hk ▸ hj, by rwa [List.getElem?_append_left hj], hrest⟩

/-- A move carries the chronicle on. -/
lemma Chronicle.after (h : s.Chronicle) (hholds : s.Holds s.Written)
    (hallowed : s.ReadBeforeWrite m) : (s.after m).Chronicle := by
  rcases s.writes_after m with hwrites | ⟨i, key, context, value, r, merged, r', hm, hr, hwrite,
    hcluster, hwrites⟩
  · refine ⟨fun w hw => ?_, ?_, ?_⟩
    · rw [hwrites] at hw
      exact signed_after h m hw
    · rw [hwrites]
      exact h.fresh
    · rw [hwrites]
      exact h.read
  · exact h.append hholds hr hwrite (hallowed.2 i key context value hm) hcluster hwrites

/-- What clients do who write in the context of what they have read, they may do in a
closed cluster. -/
lemma Reaches.closed (h : Reaches ReadBeforeWrite s t) : Reaches Closed s t := by
  induction h with
  | refl => exact .refl
  | step _ hallowed ih => exact ih.step hallowed.1

/-- **The chronicle of a cluster.**  From empty stores, the chronicle is true in every
state. -/
theorem chronicle_of_reaches {c : Cluster} (hempty : ∀ r ∈ c.replicas, r.store = KeyMap.empty)
    (h : Reaches ReadBeforeWrite (start c) s) : s.Chronicle := by
  induction h with
  | refl => exact chronicle_start c
  | step hst hallowed ih => exact ih.after (Holds.written hempty hst.closed) hallowed

/-! ### Origins -/

/-- Each counter of a context goes back to an earlier write by its owner, which the
context covers. -/
theorem Chronicle.exists_origin (h : s.Chronicle) {k : ℕ} {id : String}
    (hw : s.writes[k]? = some w) (hid : w.context.get id ≠ 0) :
    ∃ j e, j < k ∧ s.writes[j]? = some e ∧ e.key = w.key ∧ e.signer = id ∧
      e.clock ≤ w.context ∧ e.clock.get id = w.context.get id := by
  induction k using Nat.strong_induction_on generalizing w with
  | _ k ih =>
    obtain ⟨j, u, hjk, hu, hkey, hle, hget⟩ := h.read k w id hw hid
    by_cases hsigner : u.signer = id
    · exact ⟨j, u, hjk, hu, hkey, hsigner, hle, hget⟩
    · -- the counter was already in the context of `u`
      have hcontext : u.clock.get id = u.context.get id :=
        Clock.get_increment_of_ne u.context (Ne.symm hsigner)
      have hne : u.context.get id ≠ 0 := by rwa [← hcontext, hget]
      obtain ⟨i, e, hij, he, hekey, hesigner, hele, heget⟩ := ih j hjk hu hne
      have hbelow : e.clock ≤ w.context :=
        calc e.clock ≤ u.context := hele
          _ ≤ u.clock := Clock.le_increment _ _
          _ ≤ w.context := hle
      have hcounter : e.clock.get id = w.context.get id :=
        calc e.clock.get id = u.context.get id := heget
          _ = u.clock.get id := hcontext.symm
          _ = w.context.get id := hget
      exact ⟨i, e, hij.trans hjk, he, hekey.trans hkey, hesigner, hbelow, hcounter⟩

/-- Each counter of the clock of a write goes back to a write by its owner that is not
later. -/
lemma Chronicle.exists_origin_of_clock (h : s.Chronicle) {id : String} (hw : w ∈ s.writes)
    (hid : w.clock.get id ≠ 0) :
    ∃ e ∈ s.writes, e.key = w.key ∧ e.signer = id ∧ e.clock ≤ w.clock ∧
      e.clock.get id = w.clock.get id := by
  by_cases hsigner : w.signer = id
  · exact ⟨w, hw, rfl, hsigner, le_rfl, rfl⟩
  · have hcontext : w.clock.get id = w.context.get id :=
      Clock.get_increment_of_ne w.context (Ne.symm hsigner)
    obtain ⟨k, hk⟩ := List.mem_iff_getElem?.mp hw
    obtain ⟨j, e, -, he, hkey, hesigner, hle, hget⟩ := h.exists_origin hk (hcontext ▸ hid)
    exact ⟨e, List.mem_of_getElem? he, hkey, hesigner, hle.trans (Clock.le_increment _ _),
      hget.trans hcontext.symm⟩

/-- If no two replicas have one name, a write was accepted by the replica that has the
name of its signer. -/
lemma Chronicle.node_eq (h : s.Chronicle)
    (hdistinct : (s.cluster.replicas.map Replica.id).Nodup) {i : ℕ} {r : Replica}
    (hw : w ∈ s.writes) (hr : s.cluster.replicas[i]? = some r) (hsigner : w.signer = r.id) :
    w.node = i := by
  obtain ⟨q, hq, hid, -⟩ := h.signed w hw
  have hnode : (s.cluster.replicas.map Replica.id)[w.node]? = some r.id := by
    rw [List.getElem?_map, hq, Option.map_some, hid, hsigner]
  have hindex : (s.cluster.replicas.map Replica.id)[i]? = some r.id := by
    rw [List.getElem?_map, hr, Option.map_some]
  have hlt := (List.getElem?_eq_some_iff.mp hnode).1
  exact (List.getElem?_inj hlt hdistinct).mp (hnode.trans hindex.symm)

end Traffic

end QuorumStore
