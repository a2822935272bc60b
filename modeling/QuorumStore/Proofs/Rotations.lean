/-
A ring read from an index on is the ring turned as often as the index says.

* `Ring.startingAt_succ`: the next index is one turn more;
* `Ring.startingAt_eq_iterate`: an index counts turns;
* `Ring.getElem?_startingAt`: which member of a ring stands where;
* `Ring.startingAt_eq_filterMap`: a ring read from a place on, member by member;
* `Ring.startingAt_of_turns`: turns add up, lose no member, and begin anew after
  a whole round.

`Ring.startingAt` takes the index modulo the length and moves that many members
at once.  On an empty ring the remainder is the index itself, and there is
nothing to move.
-/
import Mathlib.Data.List.Rotate
import QuorumStore.Ring

namespace QuorumStore

namespace Ring

variable {α : Type} {l : List α}

/-! ### Turns -/

lemma startingAt_eq_rotate (l : List α) (i : Nat) : startingAt l i = l.rotate i :=
  List.rotate_eq_drop_append_take_mod.symm

lemma rotate_eq_rotate_one (l : List α) : rotate l = l.rotate 1 := by
  cases l with
  | nil => rfl
  | cons x rest => rw [List.rotate_cons_succ, List.rotate_zero, rotate]

/-- The next index is one turn more. -/
lemma startingAt_succ (l : List α) (i : Nat) : startingAt l (i + 1) = rotate (startingAt l i) := by
  rw [rotate_eq_rotate_one, startingAt_eq_rotate, startingAt_eq_rotate, List.rotate_rotate]

/-- An index counts turns. -/
lemma startingAt_eq_iterate (l : List α) (i : Nat) : startingAt l i = rotate^[i] l := by
  induction i with
  | zero => rw [startingAt_eq_rotate, List.rotate_zero, Function.iterate_zero_apply]
  | succ i ih => rw [startingAt_succ, ih, Function.iterate_succ_apply']

/-! ### Members -/

/-- Places are counted from the index on, and around the ring. -/
lemma getElem?_startingAt {p : Nat} (hp : p < l.length) (i : Nat) :
    (startingAt l i)[p]? = l[(i + p) % l.length]? := by
  rw [startingAt_eq_rotate, List.getElem?_rotate hp, Nat.add_comm p i]

lemma map_some_filterMap {β : Type} {f : α → Option β} {l : List α}
    (h : ∀ x ∈ l, (f x).isSome) : (l.filterMap f).map some = l.map f := by
  induction l with
  | nil => rfl
  | cons x rest ih =>
    obtain ⟨hx, hrest⟩ := List.forall_mem_cons.mp h
    obtain ⟨y, hy⟩ := Option.isSome_iff_exists.mp hx
    rw [List.filterMap_cons_some hy, List.map_cons, List.map_cons, ih hrest, hy]

/-- A rotated ring is the ring read from a place on. -/
lemma startingAt_eq_filterMap (l : List α) (i : Nat) :
    startingAt l i = (List.range' i l.length).filterMap fun k => l[k % l.length]? := by
  have inRange : ∀ k ∈ List.range' i l.length, (l[k % l.length]?).isSome := by
    intro k hk
    have hpos : 0 < l.length := by
      rw [List.mem_range'_1] at hk
      omega
    rw [List.getElem?_eq_getElem (Nat.mod_lt k hpos), Option.isSome_some]
  refine List.map_injective_iff.mpr (fun _ _ => Option.some.inj) (List.ext_getElem? fun k => ?_)
  rw [map_some_filterMap inRange, List.getElem?_map, List.getElem?_map]
  by_cases hk : k < l.length
  · rw [getElem?_startingAt hk, List.getElem?_range' hk, Option.map_some, Nat.one_mul]
    have hi : (i + k) % l.length < l.length := Nat.mod_lt _ (Nat.zero_lt_of_lt hk)
    rw [List.getElem?_eq_getElem hi]
    rfl
  · rw [startingAt_eq_rotate, List.getElem?_eq_none (by simpa using hk),
      List.getElem?_eq_none (by simpa using hk)]
    rfl

/-! ### A ring read from any index on -/

/-- **An index counts turns of the ring.**  The ring read from an index on is the
ring turned as often as the index says, whatever its length.  It has the same
members, and the one at a place is found that many places behind the index,
wrapping around.  Two indices one after the other are their sum, and indices that
differ by whole rounds are the same. -/
theorem startingAt_of_turns (ring : List α) :
    (∀ i, startingAt ring i = rotate^[i] ring) ∧
    (∀ i, (startingAt ring i).Perm ring) ∧
    (∀ i j, startingAt (startingAt ring i) j = startingAt ring (i + j)) ∧
    (∀ i p, p < ring.length → (startingAt ring i)[p]? = ring[(i + p) % ring.length]?) ∧
    ∀ i j, i % ring.length = j % ring.length → startingAt ring i = startingAt ring j := by
  refine ⟨startingAt_eq_iterate ring, fun i => ?_, fun i j => ?_,
    fun i p hp => getElem?_startingAt hp i, fun i j h => ?_⟩
  · rw [startingAt_eq_rotate]
    exact List.rotate_perm ring i
  · simp only [startingAt_eq_rotate, List.rotate_rotate]
  · rw [startingAt_eq_rotate, startingAt_eq_rotate, ← List.rotate_mod, h, List.rotate_mod]

/-- Three endpoints from index 4 on: one whole round and one turn. -/
theorem startingAt_of_turns_wrapped :
    let ring : List Endpoint := [⟨"localhost", 7000⟩, ⟨"localhost", 7001⟩, ⟨"localhost", 7002⟩]
    4 % ring.length = 1 % ring.length ∧ startingAt ring 4 = startingAt ring 1 ∧
      2 < ring.length ∧ (startingAt ring 4)[2]? = some ⟨"localhost", 7000⟩ := by
  intro ring
  obtain ⟨-, -, -, members, rounds⟩ := startingAt_of_turns ring
  have round : 4 % ring.length = 1 % ring.length := by decide
  have place : 2 < ring.length := by decide
  have member : ring[(4 + 2) % ring.length]? = some ⟨"localhost", 7000⟩ := by decide
  exact ⟨round, rounds 4 1 round, place, (members 4 2 place).trans member⟩

end Ring

end QuorumStore
