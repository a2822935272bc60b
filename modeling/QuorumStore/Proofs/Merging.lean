/-
What a merge keeps, for sets of versions and for stores.

* `Siblings.covers_merge`: a merge covers what either side covers, whether or
  not the sides are antichains: from a clock that is covered one ascends to a
  maximal one, and the maximal ones stay;
* `Siblings.antichain_merge_iff`: what is merged into an antichain gives one if and
  only if what is new in it is one, so the merge of two antichains is an antichain;
* `Store.absorbEach_append`: parts are merged one after the other, and what is new in
  them adds up;
* `Store.knows_absorbEach_iff`: a store that has absorbed versions covers what it
  covered and what it was given;
* `Store.holds_absorbEach`: a property of version sets that merges preserve is
  preserved by a store.
-/
import Mathlib.Data.Set.Finite.List
import Mathlib.Order.Preorder.Finite
import QuorumStore.Proofs.Causality
import QuorumStore.Store

namespace QuorumStore

namespace Siblings

variable {held incoming : Siblings} {v : Version} {c d : Clock}

/-! ### Covered clocks -/

/-- A set of versions covers a clock if some version is equal to it or after it. -/
def Covers (s : Siblings) (c : Clock) : Prop :=
  ∃ v ∈ s, c ≤ v.clock

/-- The versions are pairwise concurrent. -/
def Antichain (s : Siblings) : Prop :=
  s.Pairwise fun v w => v.clock.concurrent w.clock = true

instance (s : Siblings) : Decidable s.Antichain :=
  inferInstanceAs (Decidable (s.Pairwise fun v w => v.clock.concurrent w.clock = true))

lemma covers_of_mem {s : Siblings} (h : v ∈ s) : s.Covers v.clock := ⟨v, h, le_rfl⟩

lemma Covers.anti {s : Siblings} (h : s.Covers d) (hcd : c ≤ d) : s.Covers c := by
  obtain ⟨v, hv, hle⟩ := h
  exact ⟨v, hv, hcd.trans hle⟩

@[simp] lemma not_covers_nil : ¬ Covers [] c := by
  rintro ⟨v, hv, -⟩
  exact List.not_mem_nil hv

lemma isFresh_iff : held.isFresh v = true ↔ ¬ held.Covers v.clock := by
  simp only [isFresh, Covers, Bool.not_eq_true', ← Bool.not_eq_true, List.any_eq_true,
    Bool.or_eq_true, decide_eq_true_eq, Clock.before_iff_lt, ← le_iff_lt_or_eq]

lemma survives_iff : incoming.survives v = true ↔ ∀ w ∈ incoming, ¬ v.clock < w.clock := by
  simp only [survives, Bool.not_eq_true', ← Bool.not_eq_true, List.any_eq_true,
    Clock.before_iff_lt, not_exists, not_and]

/-! ### Merges -/

lemma merge_versions :
    (held.merge incoming).versions
      = held.filter (survives incoming) ++ incoming.filter (isFresh held) := rfl

/-- A merge holds the held versions that no incoming one is strictly after, and
the incoming versions that the held ones do not cover. -/
lemma mem_merge :
    v ∈ (held.merge incoming).versions ↔
      v ∈ held ∧ (∀ w ∈ incoming, ¬ v.clock < w.clock) ∨
        v ∈ incoming ∧ ¬ held.Covers v.clock := by
  rw [merge_versions, List.mem_append, List.mem_filter, List.mem_filter, survives_iff,
    isFresh_iff]

lemma mem_or_mem_of_mem_merge (h : v ∈ (held.merge incoming).versions) :
    v ∈ held ∨ v ∈ incoming := by
  rcases mem_merge.mp h with h | h
  · exact .inl h.1
  · exact .inr h.1

/-- The incoming side brings something if the held side does not cover it. -/
lemma changed_merge_iff :
    (held.merge incoming).changed = true ↔ ∃ w ∈ incoming, ¬ held.Covers w.clock := by
  have hdef : (held.merge incoming).changed = true ↔ 0 < (incoming.filter (isFresh held)).length :=
    decide_eq_true_iff
  simp only [hdef, List.length_pos_iff_exists_mem, List.mem_filter, isFresh_iff]

lemma merge_ne_nil_of_changed (h : (held.merge incoming).changed = true) :
    (held.merge incoming).versions ≠ [] := by
  obtain ⟨w, hw, hnew⟩ := changed_merge_iff.mp h
  exact List.ne_nil_of_mem (mem_merge.mpr (.inr ⟨hw, hnew⟩))

/-- Above every version of a list there is one that none is strictly after. -/
lemma exists_maximal_above {s : Siblings} (hv : v ∈ s) :
    ∃ m ∈ s, v.clock ≤ m.clock ∧ ∀ w ∈ s, ¬ m.clock < w.clock := by
  have hfinite : {c | c ∈ s.map Version.clock}.Finite := List.finite_toSet _
  obtain ⟨c, hle, hmax⟩ := hfinite.exists_le_maximal (List.mem_map.mpr ⟨v, hv, rfl⟩)
  obtain ⟨m, hm, rfl⟩ := List.mem_map.mp hmax.prop
  exact ⟨m, hm, hle, fun w hw => hmax.not_gt (List.mem_map.mpr ⟨w, hw, rfl⟩)⟩

/-- A merge covers what either side covers. -/
theorem covers_merge :
    (held.merge incoming).versions.Covers c ↔ held.Covers c ∨ incoming.Covers c := by
  constructor
  · rintro ⟨v, hv, hle⟩
    rcases mem_or_mem_of_mem_merge hv with hv | hv
    · exact .inl ⟨v, hv, hle⟩
    · exact .inr ⟨v, hv, hle⟩
  · intro h
    have hcovered : ∃ v ∈ held ++ incoming, c ≤ v.clock := by
      rcases h with ⟨v, hv, hle⟩ | ⟨v, hv, hle⟩
      · exact ⟨v, List.mem_append_left _ hv, hle⟩
      · exact ⟨v, List.mem_append_right _ hv, hle⟩
    obtain ⟨v, hv, hle⟩ := hcovered
    obtain ⟨m, hm, hvm, hmax⟩ := exists_maximal_above hv
    have hcm : c ≤ m.clock := hle.trans hvm
    -- a held version with the clock of `m` wins over an incoming one
    by_cases hheld : held.Covers m.clock
    · obtain ⟨w, hw, hmw⟩ := hheld
      have hwm : w.clock = m.clock :=
        (eq_or_lt_of_le hmw).elim Eq.symm fun hlt =>
          absurd hlt (hmax w (List.mem_append_left _ hw))
      refine ⟨w, mem_merge.mpr (.inl ⟨hw, fun u hu => ?_⟩), hwm ▸ hcm⟩
      exact hwm ▸ hmax u (List.mem_append_right _ hu)
    · have hin : m ∈ incoming := by
        rcases List.mem_append.mp hm with hm | hm
        · exact absurd (covers_of_mem hm) hheld
        · exact hm
      exact ⟨m, mem_merge.mpr (.inr ⟨hin, hheld⟩), hcm⟩

/-- What is merged into an antichain gives one if and only if the incoming versions that
are new are pairwise concurrent. -/
theorem antichain_merge_iff (hheld : held.Antichain) :
    (held.merge incoming).versions.Antichain ↔ Antichain (incoming.filter (isFresh held)) := by
  rw [merge_versions, Antichain, List.pairwise_append]
  refine ⟨fun h => h.2.1, fun h => ⟨hheld.filter _, h, fun v hv w hw => ?_⟩⟩
  obtain ⟨hv, hsurvives⟩ := List.mem_filter.mp hv
  obtain ⟨hw, hfresh⟩ := List.mem_filter.mp hw
  rw [Clock.concurrent_iff]
  constructor
  · intro hle
    rcases eq_or_lt_of_le hle with heq | hlt
    · exact isFresh_iff.mp hfresh ⟨v, hv, heq.ge⟩
    · exact survives_iff.mp hsurvives w hw hlt
  · exact fun hle => isFresh_iff.mp hfresh ⟨v, hv, hle⟩

/-- The merge of two antichains is an antichain. -/
theorem antichain_merge (hheld : held.Antichain) (hincoming : incoming.Antichain) :
    (held.merge incoming).versions.Antichain :=
  (antichain_merge_iff hheld).mpr (hincoming.filter _)

lemma antichain_singleton (v : Version) : Antichain [v] := List.pairwise_singleton _ _

/-- Two versions of an antichain are ordered only if they are one. -/
lemma Antichain.eq_of_le {s : Siblings} {w : Version} (h : s.Antichain) (hv : v ∈ s) (hw : w ∈ s)
    (hle : v.clock ≤ w.clock) : v = w := by
  by_contra hne
  have hsymm : Std.Symm fun v w : Version => v.clock.concurrent w.clock = true :=
    ⟨fun v w hvw => Clock.concurrent_iff.mpr (Clock.concurrent_iff.mp hvw).symm⟩
  exact (Clock.concurrent_iff.mp (List.Pairwise.forall h hv hw hne)).1 hle

/-- An antichain has each of its clocks once. -/
lemma Antichain.nodup_clocks {s : Siblings} (h : s.Antichain) : s.clocks.Nodup := by
  refine List.pairwise_map.mpr (List.Pairwise.imp (fun {v w} hconcurrent heq => ?_) h)
  exact (Clock.concurrent_iff.mp hconcurrent).1 (le_of_eq heq)

/-- An antichain into which nothing new is merged stays as it is. -/
lemma merge_of_not_changed (hheld : held.Antichain)
    (h : ¬ (held.merge incoming).changed = true) : (held.merge incoming).versions = held := by
  have hcovered : ∀ w ∈ incoming, held.Covers w.clock := fun w hw => by
    by_contra hnew
    exact h (changed_merge_iff.mpr ⟨w, hw, hnew⟩)
  have hsurvive : held.filter (survives incoming) = held := by
    refine List.filter_eq_self.mpr fun v hv => survives_iff.mpr fun w hw hlt => ?_
    obtain ⟨u, hu, hle⟩ := hcovered w hw
    have heq : v = u := hheld.eq_of_le hv hu (hlt.le.trans hle)
    exact absurd (hlt.trans_le hle) (heq ▸ lt_irrefl _)
  have hnone : incoming.filter (isFresh held) = [] :=
    List.filter_eq_nil_iff.mpr fun w hw hfresh => isFresh_iff.mp hfresh (hcovered w hw)
  rw [merge_versions, hsurvive, hnone, List.append_nil]

/-! ### Properties that merges preserve -/

/-- A property of the version sets of keys that the empty set has and that
merges preserve. -/
structure MergeStable (Good : String → Siblings → Prop) : Prop where
  nil : ∀ key, Good key []
  merge : ∀ {key held incoming}, Good key held → Good key incoming →
    Good key (Siblings.merge held incoming).versions

/-- Being an antichain is preserved. -/
lemma mergeStable_antichain : MergeStable fun _ => Antichain where
  nil _ := List.Pairwise.nil
  merge := antichain_merge

/-- Containing only versions of a kind is preserved. -/
lemma mergeStable_forall_mem (P : String → Version → Prop) :
    MergeStable fun key s => ∀ v ∈ s, P key v where
  nil _ := by simp
  merge hheld hincoming v hv := (mem_or_mem_of_mem_merge hv).elim (hheld v) (hincoming v)

end Siblings

/-! ### Stores -/

namespace Store

variable {s : Store} {key k : String} {c : Clock} {incoming : Siblings}

/-- A store knows of a write if some version of the key covers its clock. -/
def Knows (s : Store) (key : String) (c : Clock) : Prop :=
  (s.versions key).Covers c

/-- Every key of a store has at least one version, and its versions have a
property. -/
def Holds (Good : String → Siblings → Prop) (s : Store) : Prop :=
  ∀ key versions, s.get? key = some versions → versions ≠ [] ∧ Good key versions

/-- What a store reads at a key has the property. -/
lemma Holds.versions {Good : String → Siblings → Prop} (stable : Siblings.MergeStable Good)
    (h : s.Holds Good) (key : String) : Good key (s.versions key) := by
  cases hget : s.get? key with
  | none => simpa [Store.versions, hget] using stable.nil key
  | some versions => simpa [Store.versions, hget] using (h key versions hget).2

lemma versions_of_get? {versions : Siblings} (h : s.get? key = some versions) :
    s.versions key = versions := by simp [Store.versions, h]

lemma knows_of_get?_isSome (h : s.Knows key c) : ∃ versions, s.get? key = some versions := by
  cases hget : s.get? key with
  | some versions => exact ⟨versions, rfl⟩
  | none =>
    rw [Knows, Store.versions, hget] at h
    exact absurd h Siblings.not_covers_nil

/-- Absorbing versions that bring something replaces the set of their key. -/
lemma snd_absorb_of_changed (h : ((s.versions key).merge incoming).changed = true) :
    (s.absorb key incoming).2
      = s.insert key ((s.versions key).merge incoming).versions := by
  simp [absorb, h]

/-- Absorbing versions that bring nothing changes nothing. -/
lemma snd_absorb_of_not_changed (h : ¬ ((s.versions key).merge incoming).changed = true) :
    (s.absorb key incoming).2 = s := by simp [absorb, h]

lemma versions_absorb_of_changed (h : ((s.versions key).merge incoming).changed = true) :
    (s.absorb key incoming).2.versions key = ((s.versions key).merge incoming).versions := by
  rw [snd_absorb_of_changed h, Store.versions, KeyMap.get?_insert, if_pos rfl, Option.getD_some]

/-- A store takes over what a merge returns if the merge brings something new. -/
lemma versions_absorb : (s.absorb key incoming).2.versions key =
    if ((s.versions key).merge incoming).changed then ((s.versions key).merge incoming).versions
    else s.versions key := by
  split
  · rename_i hchanged
    exact versions_absorb_of_changed hchanged
  · rename_i hchanged
    rw [snd_absorb_of_not_changed hchanged]

/-- Absorbing versions of a key leaves the other keys alone. -/
lemma versions_absorb_of_ne (h : key ≠ k) :
    (s.absorb key incoming).2.versions k = s.versions k := by
  by_cases hchanged : ((s.versions key).merge incoming).changed = true
  · rw [snd_absorb_of_changed hchanged, Store.versions, KeyMap.get?_insert, if_neg h,
      Store.versions]
  · rw [snd_absorb_of_not_changed hchanged]

/-- After absorbing versions of a key a store covers what it covered and what
they cover. -/
lemma knows_absorb :
    (s.absorb key incoming).2.Knows k c ↔ s.Knows k c ∨ key = k ∧ incoming.Covers c := by
  by_cases hk : key = k
  · subst hk
    by_cases hchanged : ((s.versions key).merge incoming).changed = true
    · rw [Knows, versions_absorb_of_changed hchanged, Siblings.covers_merge]
      simp [Knows]
    · rw [snd_absorb_of_not_changed hchanged]
      refine ⟨.inl, fun h => h.elim id fun h => ?_⟩
      obtain ⟨w, hw, hle⟩ := h.2
      by_contra hnew
      refine hchanged (Siblings.changed_merge_iff.mpr ⟨w, hw, fun hcov => hnew ?_⟩)
      exact hcov.anti hle
  · rw [Knows, versions_absorb_of_ne hk]
    simp [Knows, hk]

lemma knows_absorb_of_mem {v : Version} (hv : v ∈ incoming) :
    (s.absorb key incoming).2.Knows key v.clock :=
  knows_absorb.mpr (.inr ⟨rfl, Siblings.covers_of_mem hv⟩)

/-- Absorbing versions with a property that merges preserve keeps it. -/
lemma holds_absorb {Good : String → Siblings → Prop} (stable : Siblings.MergeStable Good)
    (h : s.Holds Good) (hin : Good key incoming) : (s.absorb key incoming).2.Holds Good := by
  by_cases hchanged : ((s.versions key).merge incoming).changed = true
  · rw [snd_absorb_of_changed hchanged]
    intro k versions hget
    rw [KeyMap.get?_insert] at hget
    split at hget
    · rename_i hk
      subst hk
      cases hget
      refine ⟨Siblings.merge_ne_nil_of_changed hchanged, stable.merge ?_ hin⟩
      cases hheld : s.get? key with
      | none => simpa [Store.versions, hheld] using stable.nil key
      | some held => simpa [Store.versions, hheld] using (h key held hheld).2
    · exact h k versions hget
  · rwa [snd_absorb_of_not_changed hchanged]

/-! ### Absorbing the versions of several keys -/

lemma snd_absorbEach_nil : (s.absorbEach []).2 = s := rfl

lemma absorbEach_cons (p : String × Siblings) (pairs : List (String × Siblings)) :
    s.absorbEach (p :: pairs) =
      ((s.absorb p.1 p.2).1.fresh + ((s.absorb p.1 p.2).2.absorbEach pairs).1,
        ((s.absorb p.1 p.2).2.absorbEach pairs).2) := by
  -- what was counted before is carried along
  have key : ∀ (n : Nat) (t : Store),
      pairs.foldl (fun acc p => (acc.1 + (acc.2.absorb p.1 p.2).1.fresh,
        (acc.2.absorb p.1 p.2).2)) (n, t)
      = (n + (t.absorbEach pairs).1, (t.absorbEach pairs).2) := by
    induction pairs with
    | nil => exact fun _ _ => rfl
    | cons q rest ih =>
      intro n t
      have hcons : t.absorbEach (q :: rest) = rest.foldl
          (fun acc p => (acc.1 + (acc.2.absorb p.1 p.2).1.fresh, (acc.2.absorb p.1 p.2).2))
          (0 + (t.absorb q.1 q.2).1.fresh, (t.absorb q.1 q.2).2) := rfl
      rw [List.foldl_cons, ih, hcons, ih, Nat.zero_add, Nat.add_assoc]
  exact (key (0 + (s.absorb p.1 p.2).1.fresh) (s.absorb p.1 p.2).2).trans (by rw [Nat.zero_add])

lemma snd_absorbEach_cons (p : String × Siblings) (pairs : List (String × Siblings)) :
    (s.absorbEach (p :: pairs)).2 = ((s.absorb p.1 p.2).2.absorbEach pairs).2 := by
  rw [absorbEach_cons]

lemma snd_absorbEach_singleton :
    (s.absorbEach [(key, incoming)]).2 = (s.absorb key incoming).2 := by
  rw [snd_absorbEach_cons, snd_absorbEach_nil]

/-- Parts are merged one after the other, and what is new in them adds up. -/
lemma absorbEach_append (pairs pairs' : List (String × Siblings)) :
    s.absorbEach (pairs ++ pairs') =
      ((s.absorbEach pairs).1 + ((s.absorbEach pairs).2.absorbEach pairs').1,
        ((s.absorbEach pairs).2.absorbEach pairs').2) := by
  induction pairs generalizing s with
  | nil =>
    have hnil : s.absorbEach [] = (0, s) := rfl
    rw [List.nil_append, hnil, Nat.zero_add]
  | cons p rest ih =>
    rw [List.cons_append, absorbEach_cons, ih, absorbEach_cons]
    simp only [Nat.add_assoc]

lemma snd_absorbEach_append (pairs pairs' : List (String × Siblings)) :
    (s.absorbEach (pairs ++ pairs')).2 = ((s.absorbEach pairs).2.absorbEach pairs').2 := by
  rw [absorbEach_append]

/-- Versions of a key that a store knows of bring it nothing. -/
lemma absorb_of_knows (h : ∀ w ∈ incoming, s.Knows key w.clock) :
    (s.absorb key incoming).1.fresh = 0 ∧ (s.absorb key incoming).2 = s := by
  have hunchanged : ¬ ((s.versions key).merge incoming).changed = true := fun hchanged => by
    obtain ⟨w, hw, hnew⟩ := Siblings.changed_merge_iff.mp hchanged
    exact hnew (h w hw)
  refine ⟨?_, snd_absorb_of_not_changed hunchanged⟩
  have hzero : ¬ 0 < (s.absorb key incoming).1.fresh := fun hpos =>
    hunchanged (decide_eq_true hpos)
  omega

/-- A store that knows of all that it is given counts nothing new and stays as it is. -/
theorem absorbEach_of_knows {pairs : List (String × Siblings)}
    (h : ∀ p ∈ pairs, ∀ w ∈ p.2, s.Knows p.1 w.clock) : s.absorbEach pairs = (0, s) := by
  induction pairs with
  | nil => rfl
  | cons p rest ih =>
    rw [List.forall_mem_cons] at h
    obtain ⟨hfresh, hstore⟩ := absorb_of_knows h.1
    rw [absorbEach_cons, hfresh, hstore, ih h.2]
    rfl

/-- A store that absorbs versions covers what it covered and what they cover. -/
theorem knows_absorbEach_iff {pairs : List (String × Siblings)} :
    (s.absorbEach pairs).2.Knows k c ↔ s.Knows k c ∨ ∃ p ∈ pairs, p.1 = k ∧ p.2.Covers c := by
  induction pairs generalizing s with
  | nil => simp [snd_absorbEach_nil]
  | cons p rest ih => simp [snd_absorbEach_cons, ih, knows_absorb, or_assoc]

lemma knows_absorbEach {pairs : List (String × Siblings)} (h : s.Knows k c) :
    (s.absorbEach pairs).2.Knows k c :=
  knows_absorbEach_iff.mpr (.inl h)

/-- Absorbing version sets with a property that merges preserve keeps it. -/
theorem holds_absorbEach {Good : String → Siblings → Prop}
    (stable : Siblings.MergeStable Good) {pairs : List (String × Siblings)}
    (h : s.Holds Good) (hpairs : ∀ p ∈ pairs, Good p.1 p.2) :
    (s.absorbEach pairs).2.Holds Good := by
  induction pairs generalizing s with
  | nil => exact h
  | cons p rest ih =>
    rw [snd_absorbEach_cons]
    refine ih (holds_absorb stable h (hpairs p ?_)) fun q hq => hpairs q ?_
    · exact List.mem_cons_self
    · exact List.mem_cons_of_mem p hq

lemma holds_empty (Good : String → Siblings → Prop) : Holds Good KeyMap.empty := by
  intro key versions h
  simp at h

end Store

end QuorumStore
