/-
Joins of clocks.  The join of some clocks is their least upper bound in the causal order,
so it does not depend on how they are listed or grouped.

* `Clock.isLUB_joinAll`: a join is the least upper bound;
* `Clock.joinAll_congr`: clocks that the same clocks bound have the same join;
* `Siblings.context_le_iff`: the context of some versions is below a clock if all that
  they cover is;
* `Siblings.context_merge`: so a merge, which covers what both sides cover, loses nothing
  of their contexts;
* `Clock.leastUpperBound_joinAll`: all this of the clocks as they are compared.
-/
import Mathlib.Order.Bounds.Basic
import QuorumStore.Proofs.Merging

namespace QuorumStore

namespace Clock

variable {a b c d : Clock} {others more : List Clock}

/-- What is equal to or before a clock as it is compared is below it. -/
lemma le_iff_eq_or_before : a ≤ b ↔ a = b ∨ a.before b = true := by
  rw [before_iff_lt]
  exact le_iff_eq_or_lt

/-! ### Upper bounds -/

/-- A clock is above a join if it is above all that is joined. -/
lemma joinAll_le_iff_forall : a.joinAll others ≤ d ↔ ∀ c ∈ a :: others, c ≤ d := by
  rw [joinAll_le_iff, List.forall_mem_cons]

/-- A join is the least upper bound in the causal order. -/
theorem isLUB_joinAll (a : Clock) (others : List Clock) :
    IsLUB {c | c ∈ a :: others} (a.joinAll others) :=
  isLUB_iff_le_iff.mpr fun _ => joinAll_le_iff_forall

lemma le_joinAll (h : c ∈ a :: others) : c ≤ a.joinAll others :=
  (isLUB_joinAll a others).1 h

/-- Each counter of a join is the largest of all that are joined. -/
lemma isGreatest_get_joinAll (a : Clock) (others : List Clock) (id : String) :
    IsGreatest {n | ∃ c ∈ a :: others, c.get id = n} ((a.joinAll others).get id) := by
  refine ⟨exists_get_joinAll a others id, ?_⟩
  rintro n ⟨c, hc, rfl⟩
  exact le_joinAll hc id

/-! ### Lists of clocks -/

/-- Clocks that the same clocks bound have the same join. -/
theorem joinAll_congr
    (h : ∀ d, (∀ c ∈ a :: others, c ≤ d) ↔ ∀ c ∈ b :: more, c ≤ d) :
    a.joinAll others = b.joinAll more := by
  refine eq_of_forall_ge_iff fun d => ?_
  rw [joinAll_le_iff_forall, joinAll_le_iff_forall]
  exact h d

/-- Lists that differ in order and repetitions have the same join. -/
lemma joinAll_eq_of_mem_iff (h : ∀ c, c ∈ b :: more ↔ c ∈ a :: others) :
    b.joinAll more = a.joinAll others :=
  joinAll_congr fun _ => forall_congr' fun c => imp_congr_left (h c)

/-- What is joined in two steps may be joined in one. -/
lemma joinAll_joinAll (a : Clock) (others more : List Clock) :
    (a.joinAll others).joinAll more = a.joinAll (others ++ more) :=
  List.foldl_append.symm

/-- Clocks may be joined in groups, and the joins of these then. -/
lemma joinAll_groups (a : Clock) (groups : List (Clock × List Clock)) :
    a.joinAll (groups.map fun g => g.1.joinAll g.2) =
      a.joinAll (groups.flatMap fun g => g.1 :: g.2) := by
  refine eq_of_forall_ge_iff fun d => ?_
  simp only [joinAll_le_iff, List.forall_mem_map, List.mem_flatMap, List.mem_cons]
  refine and_congr_right fun _ => ⟨?_, fun h g hg => ?_⟩
  · rintro h c ⟨g, hg, rfl | hc⟩
    · exact (h g hg).1
    · exact (h g hg).2 c hc
  · exact ⟨h g.1 ⟨g, hg, .inl rfl⟩, fun c hc => h c ⟨g, hg, .inr hc⟩⟩

end Clock

/-! ### Contexts -/

namespace Siblings

variable {s t held incoming : Siblings} {d : Clock}

/-- The context of some versions is below a clock if all that they cover is. -/
theorem context_le_iff : s.context ≤ d ↔ ∀ c, s.Covers c → c ≤ d := by
  rw [context, Clock.joinAll_le_iff, and_iff_right (Clock.empty_le d), List.forall_mem_map]
  constructor
  · rintro h c ⟨v, hv, hle⟩
    exact hle.trans (h v hv)
  · exact fun h v hv => h v.clock (covers_of_mem hv)

/-- All that some versions cover is below their context. -/
lemma Covers.le_context {c : Clock} (h : s.Covers c) : c ≤ s.context :=
  context_le_iff.mp le_rfl c h

lemma context_eq_of_mem_clocks_iff (h : ∀ c, c ∈ s.clocks ↔ c ∈ t.clocks) :
    s.context = t.context :=
  Clock.joinAll_eq_of_mem_iff fun c => by
    rw [List.mem_cons, List.mem_cons]
    exact or_congr_right (h c)

/-- A merge drops only what something else is after, so its context is the join of both. -/
theorem context_merge (held incoming : Siblings) :
    (held.merge incoming).versions.context = held.context.joinAll [incoming.context] := by
  refine eq_of_forall_ge_iff fun d => ?_
  rw [Clock.joinAll_le_iff, List.forall_mem_singleton, context_le_iff, context_le_iff,
    context_le_iff, ← forall_and]
  refine forall_congr' fun c => ?_
  rw [covers_merge, or_imp]

end Siblings

/-! ### Comparing joins -/

namespace Clock

/-- **Joins.**  The join of a clock and a list of clocks is equal to or after each of them,
and equal to or before every clock that is; each of its counters is the largest of theirs.
It is the same for any order, repetition or grouping of them.  So the context of some
versions depends on the set of their clocks only, and the context of a merge is the join
of the contexts of its sides, whether or not these are antichains. -/
theorem leastUpperBound_joinAll (a : Clock) (others : List Clock) :
    (∀ c ∈ a :: others, c = a.joinAll others ∨ c.before (a.joinAll others) = true) ∧
    (∀ d, (∀ c ∈ a :: others, c = d ∨ c.before d = true) →
      a.joinAll others = d ∨ (a.joinAll others).before d = true) ∧
    (∀ id, IsGreatest {n | ∃ c ∈ a :: others, c.get id = n} ((a.joinAll others).get id)) ∧
    (∀ b more, (∀ c, c ∈ b :: more ↔ c ∈ a :: others) → b.joinAll more = a.joinAll others) ∧
    (∀ more, (a.joinAll others).joinAll more = a.joinAll (others ++ more)) ∧
    (∀ groups : List (Clock × List Clock), (groups.flatMap fun g => g.1 :: g.2) = others →
      a.joinAll (groups.map fun g => g.1.joinAll g.2) = a.joinAll others) ∧
    (∀ s t : Siblings, (∀ c, c ∈ s.clocks ↔ c ∈ t.clocks) → s.context = t.context) ∧
    ∀ held incoming : Siblings,
      (held.merge incoming).versions.context = held.context.joinAll [incoming.context] := by
  refine ⟨fun c hc => le_iff_eq_or_before.mp (le_joinAll hc), fun d hd => ?_,
    isGreatest_get_joinAll a others, fun b more h => joinAll_eq_of_mem_iff h,
    joinAll_joinAll a others, ?_, fun s t h => Siblings.context_eq_of_mem_clocks_iff h,
    Siblings.context_merge⟩
  · rw [← le_iff_eq_or_before, joinAll_le_iff_forall]
    exact fun c hc => le_iff_eq_or_before.mpr (hd c hc)
  · rintro groups rfl
    exact joinAll_groups a groups

/-- Two lists with the same clocks, in another order, with a repetition and in two groups;
and versions of which a merge drops one on either side. -/
theorem leastUpperBound_joinAll_regrouped :
    let a := ofPairs [("n1", 2)]
    let b := ofPairs [("n1", 1), ("n2", 3)]
    let c := ofPairs [("n3", 1)]
    let join := ofPairs [("n1", 2), ("n2", 3), ("n3", 1)]
    let held : Siblings := [⟨a, [1]⟩, ⟨ofPairs [("n2", 2)], [2]⟩]
    let incoming : Siblings := [⟨b, [3]⟩, ⟨ofPairs [("n1", 1)], [4]⟩]
    a.joinAll [b, c] = join ∧
      (∀ d ∈ [a, b, c], d = join ∨ d.before join = true) ∧
      (join = ofPairs [("n1", 2), ("n2", 3), ("n3", 2)] ∨
        join.before (ofPairs [("n1", 2), ("n2", 3), ("n3", 2)]) = true) ∧
      c.joinAll [b, a, b] = join ∧ a.joinAll [b.joinAll [c]] = join ∧
      Siblings.context [⟨b, [1]⟩, ⟨a, [2]⟩, ⟨b, [3]⟩] = Siblings.context [⟨a, [4]⟩, ⟨b, [5]⟩] ∧
      (held.merge incoming).versions = [⟨a, [1]⟩, ⟨b, [3]⟩] ∧
      (held.merge incoming).versions.context = held.context.joinAll [incoming.context] := by
  intro a b c join held incoming
  have hjoin : a.joinAll [b, c] = join := by decide +kernel
  obtain ⟨habove, hleast, -, hlists, -, hgroups, hcontexts, hmerge⟩ :=
    leastUpperBound_joinAll a [b, c]
  rw [hjoin] at habove hleast hlists hgroups
  refine ⟨hjoin, habove, hleast _ (by decide +kernel), hlists c [b, a, b] fun d => ?_,
    hgroups [(b, [c])] rfl, hcontexts _ _ fun d => ?_, by decide +kernel, hmerge held incoming⟩
  · simp only [List.mem_cons]
    tauto
  · simp only [Siblings.clocks, List.map_cons, List.map_nil, List.mem_cons]
    tauto

end Clock

end QuorumStore
