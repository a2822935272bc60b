/-
Comparing clocks.  A clock stores the counters that are not zero and is compared by what it
stores; this file says how all counters of two clocks stand to each other then.

* `Clock.Built`: the operations on clocks, carried out on maps of counters in place, where a
  counter that is missing is first created as zero;
* `Clock.Built.counters_eq`: they come to what the operations on clocks do, so that no zero
  stays in such a map;
* `Clock.before_iff`: a clock is before another if and only if none of its counters is larger
  and one is smaller, although the comparison gives up early;
* `Clock.compare?_comm`: compared the other way round, two clocks stand the other way round;
* `Clock.relations_of_counters`: exactly one of the four relations holds of two clocks.
-/
import QuorumStore.Proofs.Causality
import QuorumStore.Proofs.Messages

namespace QuorumStore

namespace Clock

variable {a b c : Clock} {m : KeyMap UInt64}

/-! ### Counters in place -/

/-- Changes a counter where it is stored.  One that is missing is first created as zero. -/
def revise (m : KeyMap UInt64) (id : String) (f : UInt64 → UInt64) : KeyMap UInt64 :=
  m.insert id (f ((m.get? id).getD 0))

/-- Raises the counters of a map to those of another, one after the other. -/
def raise (m other : KeyMap UInt64) : KeyMap UInt64 :=
  other.entries.foldl (fun m p => revise m p.1 (max · p.2)) m

/-- The map of the pairs whose counter is positive. -/
def preset (pairs : List (String × UInt64)) : KeyMap UInt64 :=
  .ofList (pairs.filter fun p => 0 < p.2)

/-- A sequence of operations makes a clock, and the same operations in place make a map. -/
inductive Built : Clock → KeyMap UInt64 → Prop where
  /-- No writer is named. -/
  | empty : Built empty .empty
  /-- Counters are laid down. -/
  | preset (pairs : List (String × UInt64)) : Built (ofPairs pairs) (preset pairs)
  /-- The members of an object are read.  Of those with one name the last counts, and then
  zeros are dropped. -/
  | decoded (members : List (String × UInt64)) :
      Built (ofCounters (.ofList members)) (preset (KeyMap.ofList members).entries)
  /-- One more write is counted. -/
  | increment {c : Clock} {m : KeyMap UInt64} (id : String) :
      Built c m → Built (c.increment id) (revise m id next)
  /-- The maximum with others that are made so is taken. -/
  | combine {c : Clock} {m : KeyMap UInt64} {others : List (Clock × KeyMap UInt64)} :
      Built c m → (∀ p ∈ others, Built p.1 p.2) →
      Built (c.joinAll (others.map Prod.fst)) ((others.map Prod.snd).foldl raise m)

/-- A counter is stored unless it is zero. -/
lemma counters_set? (c : Clock) (id : String) (n : UInt64) :
    (c.set? id n).counters = if n = 0 then c.counters else c.counters.insert id n := by
  rw [set?]
  split <;> rfl

/-- The clock of a list of pairs stores what is laid down. -/
lemma counters_ofPairs (pairs : List (String × UInt64)) :
    (ofPairs pairs).counters = preset pairs := by
  have key : ∀ c : Clock, (pairs.foldl (fun c p => c.set? p.1 p.2) c).counters =
      (pairs.filter fun p => 0 < p.2).foldl (fun m p => m.insert p.1 p.2) c.counters := by
    induction pairs with
    | nil => exact fun _ => rfl
    | cons p rest ih =>
      intro c
      rw [List.foldl_cons, ih, counters_set?, List.filter_cons]
      by_cases hp : p.2 = 0
      · simp [hp]
      · simp [hp, UInt64.pos_iff_ne_zero]
  exact key empty

/-- The clock of a map stores the counters that are positive. -/
lemma counters_ofCounters (m : KeyMap UInt64) : (ofCounters m).counters = preset m.entries := by
  have hkept : (ofCounters m).counters.entries = m.entries.filter fun p => 0 < p.2 := by
    simp only [ofCounters, UInt64.pos_iff_ne_zero]
  exact (KeyMap.ofList_of_perm (hkept ▸ List.Perm.refl _)).symm

/-- A join raises the counters in place, since what it raises them to is never zero. -/
lemma counters_join (a b : Clock) : (a.join b).counters = raise a.counters b.counters := by
  have key : ∀ (pairs : List (String × UInt64)) (c : Clock), (∀ p ∈ pairs, p.2 ≠ 0) →
      (pairs.foldl (fun c p => c.set? p.1 (max (c.get p.1) p.2)) c).counters =
        pairs.foldl (fun m p => revise m p.1 (max · p.2)) c.counters := by
    intro pairs
    induction pairs with
    | nil => exact fun _ _ => rfl
    | cons p rest ih =>
      intro c hpairs
      obtain ⟨hp, hrest⟩ := List.forall_mem_cons.mp hpairs
      have hmax : max (c.get p.1) p.2 ≠ 0 := by
        rw [ne_eq, ← UInt64.toNat_inj, toNat_max]
        rw [ne_eq, ← UInt64.toNat_inj] at hp
        simp only [UInt64.toNat_zero] at hp ⊢
        omega
      rw [List.foldl_cons, ih _ hrest, counters_set?, if_neg hmax]
      rfl
  exact key b.entries a b.nonzero

/-- A join of many clocks raises the counters to those of one after the other. -/
lemma counters_joinAll (a : Clock) (others : List Clock) :
    (a.joinAll others).counters = (others.map counters).foldl raise a.counters := by
  rw [joinAll]
  induction others generalizing a with
  | nil => rfl
  | cons b rest ih => rw [List.foldl_cons, ih, counters_join, List.map_cons, List.foldl_cons]

/-- **Counters in place.**  Operations that change counters in place come to what the
operations on clocks do. -/
theorem Built.counters_eq (h : Built c m) : c.counters = m := by
  induction h with
  | empty => rfl
  | preset pairs => exact counters_ofPairs pairs
  | decoded members => exact counters_ofCounters _
  | increment id _ ih =>
    subst ih
    rfl
  | @combine c m others _ _ ih ihothers =>
    have hmaps : (others.map Prod.fst).map counters = others.map Prod.snd := by
      rw [List.map_map]
      exact List.map_congr_left ihothers
    rw [counters_joinAll, ih, hmaps]

/-- Every clock is made by laying its counters down. -/
lemma built_counters (c : Clock) : Built c c.counters := by
  have hpreset : preset c.entries = c.counters := by
    have hcounters := counters_ofCounters c.counters
    rw [ofCounters_counters] at hcounters
    exact hcounters.symm
  have hpairs : ofPairs c.entries = c := by
    have hcounters := counters_ofPairs c.entries
    rw [hpreset] at hcounters
    rw [← ofCounters_counters (ofPairs c.entries), hcounters, ofCounters_counters]
  have hbuilt := Built.preset c.entries
  rwa [hpreset, hpairs] at hbuilt

/-! ### Comparisons -/

/-- A clock is before another if no counter is larger and one is smaller. -/
lemma before_iff :
    a.before b = true ↔ (∀ id, a.get id ≤ b.get id) ∧ ∃ id, a.get id < b.get id := by
  rw [before_iff_lt, lt_iff_le_not_ge, le_def, le_def, not_forall]
  simp only [UInt64.not_le]

lemma before_self (a : Clock) : a.before a = false := by
  rw [← Bool.not_eq_true, before_iff_lt]
  exact lt_irrefl a

lemma before_trans (hab : a.before b = true) (hbc : b.before c = true) : a.before c = true :=
  before_iff_lt.mpr ((before_iff_lt.mp hab).trans (before_iff_lt.mp hbc))

/-- Of two clocks at most one is before the other. -/
lemma before_eq_false_of_before (h : a.before b = true) : b.before a = false := by
  rw [← Bool.not_eq_true, before_iff_lt]
  exact (before_iff_lt.mp h).not_gt

/-- Exactly one of the four relations holds of two clocks. -/
lemma count_relations (a b : Clock) :
    [decide (a = b), a.before b, b.before a, a.concurrent b].count true = 1 := by
  by_cases heq : a = b
  · subst heq
    simp [concurrent, before_self]
  · cases hab : a.before b with
    | true => simp [concurrent, heq, hab, before_eq_false_of_before hab]
    | false => cases hba : b.before a <;> simp [concurrent, heq, hab, hba]

/-- What a comparison reports. -/
lemma compare?_iff (a b : Clock) :
    (a.compare? b = some .eq ↔ a = b) ∧ (a.compare? b = some .lt ↔ a.before b = true) ∧
      (a.compare? b = some .gt ↔ b.before a = true) ∧
      (a.compare? b = none ↔ a.concurrent b = true) := by
  by_cases heq : a = b
  · subst heq
    simp [compare?, concurrent, before_self]
  · cases hab : a.before b with
    | true => simp [compare?, concurrent, heq, hab, before_eq_false_of_before hab]
    | false => cases hba : b.before a <;> simp [compare?, concurrent, heq, hab, hba]

/-- The other way round, two clocks stand the other way round. -/
lemma compare?_comm (a b : Clock) : b.compare? a = (a.compare? b).map Ordering.swap := by
  by_cases heq : a = b
  · subst heq
    simp [compare?]
  · have hne : b ≠ a := fun h => heq h.symm
    cases hab : a.before b with
    | true => simp [compare?, heq, hne, hab, before_eq_false_of_before hab]
    | false => cases hba : b.before a <;> simp [compare?, heq, hne, hab, hba]

/-- **The relations of clocks.**  However a clock is made, also with its counters changed in
place, it stores exactly the counters that are not zero.  Clocks are equal if all their
counters are.  One is before another if no counter is larger and one is smaller, and this is a
strict order.  Exactly one of the four relations holds of two clocks; a comparison tells which
one, and the other way round it tells the opposite. -/
theorem relations_of_counters :
    (∀ c m, Built c m → c.counters = m ∧ ∀ p ∈ m.entries, p.2 ≠ 0) ∧
    ∀ a b c : Clock, Built a a.counters ∧
      (∀ id n, (id, n) ∈ a.entries ↔ n ≠ 0 ∧ a.get id = n) ∧
      (a = b ↔ ∀ id, a.get id = b.get id) ∧
      (a.before b = true ↔ (∀ id, a.get id ≤ b.get id) ∧ ∃ id, a.get id < b.get id) ∧
      a.before a = false ∧
      (a.before b = true → b.before c = true → a.before c = true) ∧
      [decide (a = b), a.before b, b.before a, a.concurrent b].count true = 1 ∧
      ((a.compare? b = some .eq ↔ a = b) ∧ (a.compare? b = some .lt ↔ a.before b = true) ∧
        (a.compare? b = some .gt ↔ b.before a = true) ∧
        (a.compare? b = none ↔ a.concurrent b = true)) ∧
      b.compare? a = (a.compare? b).map Ordering.swap := by
  refine ⟨fun c m h => ⟨h.counters_eq, ?_⟩, fun a b c => ⟨built_counters a,
    fun _ _ => a.mem_entries_iff, ⟨fun h _ => h ▸ rfl, ext_get⟩, before_iff, before_self a,
    before_trans, count_relations a b, compare?_iff a b, compare?_comm a b⟩⟩
  rw [← h.counters_eq]
  exact c.nonzero

/-- Two clocks of which the first is laid down with a zero and then counts a write, and the
second takes the maximum of two others. -/
theorem relations_of_counters_built :
    let a := (ofPairs [("n1", 0), ("n2", 1)]).increment "n1"
    let b := (ofPairs [("n3", 2)]).joinAll [ofPairs [("n1", 1)], ofPairs [("n2", 1), ("n1", 0)]]
    a.entries = [("n1", 1), ("n2", 1)] ∧ b.entries = [("n1", 1), ("n2", 1), ("n3", 2)] ∧
      (∀ id, a.get id ≤ b.get id) ∧ a.before (b.increment "n2") = true ∧
      b.compare? a = some .gt := by
  intro a b
  have ha : Built a (revise (preset [("n1", 0), ("n2", 1)]) "n1" next) :=
    .increment "n1" (.preset _)
  have hab : a.before b = true := by decide +kernel
  have hbb : b.before (b.increment "n2") = true := by decide +kernel
  obtain ⟨hbuilt, hrelations⟩ := relations_of_counters
  obtain ⟨-, -, -, hbefore, -, htrans, -, ⟨-, hlt, -, -⟩, hcomm⟩ :=
    hrelations a b (b.increment "n2")
  refine ⟨?_, by decide +kernel, (hbefore.mp hab).1, htrans hab hbb, ?_⟩
  · rw [entries, (hbuilt a _ ha).1]
    decide +kernel
  · rw [hcomm, hlt.mpr hab]
    rfl

end Clock

end QuorumStore
