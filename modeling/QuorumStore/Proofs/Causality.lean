/-
The causal order of clocks.  Clocks are ordered counter by counter; this file
says what the executable comparisons and the operations mean in that order.

* `Clock.before_iff_lt`: the executable comparison is the strict causal order,
  although it gives up when the first clock names more writers;
* `Clock.concurrent_iff`: concurrent clocks are those that are not ordered;
* `Clock.le_increment_iff`: below an incremented clock lies what was below it
  before, and what also has the new counter of the writer;
* `Clock.joinAll_le_iff`: a join of clocks is their least upper bound, and each
  of its counters is the counter of one of them (`Clock.exists_get_joinAll`).
-/
import Mathlib.Order.Lattice
import Mathlib.Tactic.Lemma
import Mathlib.Data.List.Perm.Subperm
import QuorumStore.Version

namespace QuorumStore

namespace Clock

/-! ### The order -/

/-- Clocks are partially ordered by their counters. -/
instance : PartialOrder Clock where
  le_refl _ _ := UInt64.le_refl _
  le_trans _ _ _ hab hbc id := UInt64.le_trans (hab id) (hbc id)
  le_antisymm _ _ hab hba := ext_get fun id => UInt64.le_antisymm (hab id) (hba id)

lemma le_def {a b : Clock} : a ≤ b ↔ ∀ id, a.get id ≤ b.get id := Iff.rfl

@[simp] lemma empty_le (c : Clock) : empty ≤ c := fun id => by
  rw [get_empty]
  exact UInt64.le_iff_toNat_le.mpr (Nat.zero_le _)

/-- Where a clock is stored it can be compared by its stored counters. -/
lemma le_iff_entries {a b : Clock} : a ≤ b ↔ ∀ p ∈ a.entries, p.2 ≤ b.get p.1 := by
  constructor
  · rintro h ⟨id, n⟩ hp
    obtain ⟨-, hn⟩ := (mem_entries_iff a).mp hp
    exact hn ▸ h id
  · intro h id
    by_cases hz : a.get id = 0
    · rw [hz]
      exact UInt64.le_iff_toNat_le.mpr (Nat.zero_le _)
    · exact h _ ((mem_entries_iff a).mpr ⟨hz, rfl⟩)

/-- Clocks are compared by the counters that the first one stores. -/
instance : DecidableLE Clock := fun _ _ => decidable_of_iff' _ le_iff_entries

/-- A clock that is below another names no more writers. -/
lemma size_le_size {a b : Clock} (h : a ≤ b) : a.size ≤ b.size := by
  have hnodup : (a.entries.map Prod.fst).Nodup := by
    refine List.Pairwise.imp (fun {x y} hlt heq => ?_) a.counters.ascending
    exact String.lt_irrefl x (heq ▸ hlt)
  have hsub : a.entries.map Prod.fst ⊆ b.entries.map Prod.fst := by
    intro id hid
    obtain ⟨⟨id', n⟩, hp, rfl⟩ := List.mem_map.mp hid
    obtain ⟨hn, hget⟩ := (mem_entries_iff a).mp hp
    have hb : b.get id' ≠ 0 := by
      intro hz
      have hle := UInt64.le_iff_toNat_le.mp (h id')
      rw [hz, hget] at hle
      exact hn (UInt64.toNat_inj.mp (Nat.le_zero.mp hle))
    exact List.mem_map.mpr ⟨_, (mem_entries_iff b).mpr ⟨hb, rfl⟩, rfl⟩
  have hlen := (List.subperm_of_subset hnodup hsub).length_le
  simpa [size, entries, KeyMap.size] using hlen

/-- The executable comparison is the strict causal order. -/
lemma before_iff_lt {a b : Clock} : a.before b = true ↔ a < b := by
  rw [lt_iff_le_and_ne, before]
  by_cases hsize : b.size < a.size
  · have hnot : ¬ a ≤ b := fun h => absurd (size_le_size h) (Nat.not_le.mpr hsize)
    simp [hsize, hnot]
  · by_cases hab : a = b
    · simp [hab]
    · simp [hsize, hab, le_iff_entries]

/-- Concurrent clocks are those that are not ordered. -/
lemma concurrent_iff {a b : Clock} : a.concurrent b = true ↔ ¬ a ≤ b ∧ ¬ b ≤ a := by
  have hdef : a.concurrent b = true ↔ ¬ (a = b ∨ a < b ∨ b < a) := by
    simp [concurrent, ← before_iff_lt, and_assoc]
  rw [hdef]
  constructor
  · intro h
    refine ⟨fun hab => ?_, fun hba => ?_⟩
    · rcases eq_or_lt_of_le hab with hab | hab
      · exact h (.inl hab)
      · exact h (.inr (.inl hab))
    · rcases eq_or_lt_of_le hba with hba | hba
      · exact h (.inl hba.symm)
      · exact h (.inr (.inr hba))
  · rintro ⟨hab, hba⟩ (rfl | h | h)
    · exact hab le_rfl
    · exact hab h.le
    · exact hba h.le

/-! ### Increments -/

/-- A counter is at most what it is after a write. -/
lemma le_next (n : UInt64) : n ≤ next n := by
  rw [next]
  split
  · exact UInt64.le_refl n
  · rename_i h
    have hn : n.toNat ≠ counterLimit.toNat := fun h' => h (UInt64.toNat_inj.mp h')
    have hlt := n.toNat_lt
    have hl : counterLimit.toNat = 18446744073709551615 := by decide
    rw [UInt64.le_iff_toNat_le, UInt64.toNat_add]
    simp
    omega

/-- Below the limit a write raises a counter by one. -/
lemma toNat_next {n : UInt64} (h : n ≠ counterLimit) : (next n).toNat = n.toNat + 1 := by
  have hn : n.toNat ≠ counterLimit.toNat := fun h' => h (UInt64.toNat_inj.mp h')
  have hlt := n.toNat_lt
  have hl : counterLimit.toNat = 18446744073709551615 := by decide
  rw [next, if_neg h, UInt64.toNat_add]
  simp
  omega

/-- What is at most a counter after a write is at most the counter before it or
just the new counter. -/
lemma le_next_iff {m n : UInt64} : m ≤ next n ↔ m ≤ n ∨ m = next n := by
  constructor
  · intro h
    by_cases hn : n = counterLimit
    · left
      rwa [next, if_pos hn] at h
    · rw [UInt64.le_iff_toNat_le, toNat_next hn] at h
      rw [UInt64.le_iff_toNat_le, ← UInt64.toNat_inj, toNat_next hn]
      omega
  · rintro (h | rfl)
    · exact UInt64.le_trans h (le_next n)
    · exact UInt64.le_refl _

/-- Below the limit a counter after a write is not at most the one before. -/
lemma not_next_le {n : UInt64} (h : n ≠ counterLimit) : ¬ next n ≤ n := by
  rw [UInt64.le_iff_toNat_le, toNat_next h]
  omega

lemma next_counterLimit : next counterLimit = counterLimit := by decide

lemma get_increment_self (c : Clock) (id : String) : (c.increment id).get id = next (c.get id) := by
  rw [get_increment, if_pos rfl]

lemma get_increment_of_ne (c : Clock) {id x : String} (h : x ≠ id) :
    (c.increment id).get x = c.get x := by
  rw [get_increment, if_neg (Ne.symm h)]

/-- An increment does not go back. -/
lemma le_increment (c : Clock) (id : String) : c ≤ c.increment id := by
  intro x
  by_cases h : x = id
  · subst h
    rw [get_increment_self]
    exact le_next _
  · rw [get_increment_of_ne c h]
    exact UInt64.le_refl _

/-- Below an incremented clock lies what was below the clock, and what has the new
counter of the writer and no other counter above the clock. -/
lemma le_increment_iff {a c : Clock} {id : String} :
    a ≤ c.increment id ↔
      a ≤ c ∨ a.get id = next (c.get id) ∧ ∀ x, x ≠ id → a.get x ≤ c.get x := by
  constructor
  · intro h
    have hother : ∀ x, x ≠ id → a.get x ≤ c.get x := fun x hx => by
      have hle := h x
      rwa [get_increment_of_ne c hx] at hle
    have hown := h id
    rw [get_increment_self, le_next_iff] at hown
    rcases hown with hown | hown
    · left
      intro x
      by_cases hx : x = id
      · exact hx ▸ hown
      · exact hother x hx
    · exact .inr ⟨hown, hother⟩
  · rintro (h | ⟨hown, hother⟩)
    · exact h.trans (le_increment c id)
    · intro x
      by_cases hx : x = id
      · subst hx
        rw [get_increment_self, hown]
        exact UInt64.le_refl _
      · rw [get_increment_of_ne c hx]
        exact hother x hx

/-- What lies below an incremented clock but not below the clock has the new counter of
the writer, and no other counter above the clock. -/
lemma le_increment_and_not_le_iff {a c : Clock} {id : String} :
    a ≤ c.increment id ∧ ¬ a ≤ c ↔
      c.get id ≠ counterLimit ∧ a.get id = next (c.get id) ∧
        ∀ x, x ≠ id → a.get x ≤ c.get x := by
  rw [le_increment_iff]
  constructor
  · rintro ⟨hle | ⟨hown, hother⟩, hnot⟩
    · exact absurd hle hnot
    · refine ⟨fun hmax => hnot fun x => ?_, hown, hother⟩
      by_cases hx : x = id
      · subst hx
        rw [hown, hmax, next_counterLimit]
        exact UInt64.le_refl _
      · exact hother x hx
  · rintro ⟨hmax, hown, hother⟩
    refine ⟨.inr ⟨hown, hother⟩, fun hle => not_next_le hmax ?_⟩
    exact hown ▸ hle id

/-! ### Joins -/

lemma le_max_iff {k m n : UInt64} : max m n ≤ k ↔ m ≤ k ∧ n ≤ k := by
  simp only [UInt64.le_iff_toNat_le, toNat_max]
  omega

/-- The larger of two counters is one of them. -/
lemma max_eq_or (m n : UInt64) : max m n = m ∨ max m n = n := by
  simp only [← UInt64.toNat_inj, toNat_max]
  omega

/-- A join is the least upper bound. -/
lemma join_le_iff {a b c : Clock} : a.join b ≤ c ↔ a ≤ c ∧ b ≤ c := by
  simp only [le_def, get_join, le_max_iff, forall_and]

/-- A join of many clocks is their least upper bound. -/
lemma joinAll_le_iff {a c : Clock} {others : List Clock} :
    a.joinAll others ≤ c ↔ a ≤ c ∧ ∀ b ∈ others, b ≤ c := by
  rw [joinAll]
  induction others generalizing a with
  | nil => simp
  | cons b rest ih => simp [ih, join_le_iff, and_assoc]

/-- Each counter of a join of many clocks is the counter of one of them. -/
lemma exists_get_joinAll (a : Clock) (others : List Clock) (id : String) :
    ∃ b ∈ a :: others, b.get id = (a.joinAll others).get id := by
  rw [joinAll]
  induction others generalizing a with
  | nil => exact ⟨a, by simp, rfl⟩
  | cons b rest ih =>
    obtain ⟨c, hc, hget⟩ := ih (a.join b)
    rw [List.foldl_cons, ← hget]
    rcases List.mem_cons.mp hc with rfl | hc
    · rw [get_join]
      rcases max_eq_or (a.get id) (b.get id) with h | h
      · exact ⟨a, by simp, h.symm⟩
      · exact ⟨b, by simp, h.symm⟩
    · exact ⟨c, by simp [hc], rfl⟩

end Clock

/-! ### Contexts -/

namespace Siblings

/-- The context of some versions covers each of them. -/
lemma clock_le_context {s : Siblings} {v : Version} (hv : v ∈ s) : v.clock ≤ s.context :=
  (Clock.joinAll_le_iff.mp (le_refl s.context)).2 _ (List.mem_map.mpr ⟨v, hv, rfl⟩)

/-- Each counter of the context of some versions is the counter of one of them. -/
lemma exists_get_context {s : Siblings} {id : String} (h : s.context.get id ≠ 0) :
    ∃ v ∈ s, v.clock.get id = s.context.get id := by
  obtain ⟨c, hc, hget⟩ := Clock.exists_get_joinAll Clock.empty (s.map Version.clock) id
  rcases List.mem_cons.mp hc with rfl | hc
  · exact absurd hget.symm h
  · obtain ⟨v, hv, rfl⟩ := List.mem_map.mp hc
    exact ⟨v, hv, hget⟩

end Siblings

end QuorumStore
