/-
Vector clocks: for every writer how many of its writes are known.  A writer
that is not named has the counter zero, and zero is never stored, so equal
clocks have equal representations.

* `Clock.ext_get`: two clocks that read the same for every writer are equal;
* `Clock.get_increment`, `Clock.get_join`: what the operations do to the counters;
* `Clock.before`: the causal order as it is computed, which gives up early when
  the first clock names more writers than the second.
-/
import QuorumStore.KeyMap

namespace QuorumStore

/-- The largest counter; a counter that has reached it stays there. -/
def counterLimit : UInt64 := 18446744073709551615

/-- One counter for each writer, zero for all but finitely many of them. -/
structure Clock where
  /-- The counters that are not zero. -/
  counters : KeyMap UInt64
  /-- A counter of zero is not stored. -/
  nonzero : ∀ p ∈ counters.entries, p.2 ≠ 0

namespace Clock

instance : DecidableEq Clock := fun a b =>
  if h : a.counters = b.counters then
    isTrue (by cases a; cases b; cases h; rfl)
  else
    isFalse fun hab => h (hab ▸ rfl)

/-! ### Reading -/

/-- The counter of a writer. -/
def get (c : Clock) (id : String) : UInt64 :=
  (c.counters.get? id).getD 0

/-- The writers with their counters, in ascending order of the writers. -/
def entries (c : Clock) : List (String × UInt64) :=
  c.counters.entries

/-- How many writers the clock names. -/
def size (c : Clock) : Nat :=
  c.counters.size

/-- Whether the clock names no writer. -/
def isEmpty (c : Clock) : Bool :=
  c.counters.isEmpty

/-! ### Building -/

/-- The clock that knows of no write. -/
def empty : Clock := ⟨KeyMap.empty, by simp [KeyMap.empty]⟩

instance : EmptyCollection Clock := ⟨empty⟩

instance : Inhabited Clock := ⟨empty⟩

/-- Every pair after an insertion is the new one or an old one. -/
theorem mem_insertEntry {α : Type} {key : String} {value : α} {l : List (String × α)}
    {p : String × α} (h : p ∈ KeyMap.insertEntry key value l) :
    p = (key, value) ∨ p ∈ l := by
  induction l with
  | nil => simpa [KeyMap.insertEntry] using h
  | cons q rest ih =>
    simp only [KeyMap.insertEntry] at h
    split at h
    · simpa using h
    · split at h
      · rcases List.mem_cons.1 h with h | h
        · exact .inr (h ▸ List.mem_cons_self)
        · rcases ih h with h | h
          · exact .inl h
          · exact .inr (List.mem_cons_of_mem _ h)
      · rcases List.mem_cons.1 h with h | h
        · exact .inl h
        · exact .inr (List.mem_cons_of_mem _ h)

/-- Gives a writer a counter that is not zero. -/
def set (c : Clock) (id : String) (n : UInt64) (hn : n ≠ 0) : Clock where
  counters := c.counters.insert id n
  nonzero p hp := by
    rcases mem_insertEntry hp with rfl | hp
    · exact hn
    · exact c.nonzero p hp

/-- Gives a writer a counter, which is left alone by the counter zero. -/
def set? (c : Clock) (id : String) (n : UInt64) : Clock :=
  if hn : n = 0 then c else c.set id n hn

/-- The clock of a list of pairs.  Pairs with the counter zero are dropped
first; of two other pairs with one writer the later counts. -/
def ofPairs (pairs : List (String × UInt64)) : Clock :=
  pairs.foldl (fun c p => c.set? p.1 p.2) empty

/-- The counter after one more write, which saturates. -/
def next (n : UInt64) : UInt64 :=
  if n = counterLimit then n else n + 1

/-- A counter is not zero after a write. -/
theorem next_ne_zero (n : UInt64) : next n ≠ 0 := by
  unfold next
  split
  · rename_i h
    subst h
    decide
  · rename_i h
    intro hz
    have hn : n.toNat ≠ counterLimit.toNat := fun h' => h (UInt64.toNat_inj.1 h')
    have hlt := n.toNat_lt
    have hl : counterLimit.toNat = 18446744073709551615 := by decide
    have hs := congrArg UInt64.toNat hz
    rw [UInt64.toNat_add] at hs
    simp at hs
    omega

/-- Counts one more write of a writer. -/
def increment (c : Clock) (id : String) : Clock :=
  c.set id (next (c.get id)) (next_ne_zero _)

/-- The counterwise maximum of two clocks. -/
def join (a b : Clock) : Clock :=
  b.entries.foldl (fun c p => c.set? p.1 (max (c.get p.1) p.2)) a

/-- The counterwise maximum of a clock and a list of clocks. -/
def joinAll (a : Clock) (others : List Clock) : Clock :=
  others.foldl join a

/-! ### Comparing -/

/-- The causal order on clocks: each counter is at most the other's. -/
instance : LE Clock := ⟨fun a b => ∀ id, a.get id ≤ b.get id⟩

/-- Whether a clock is strictly before another: it is another clock and each of
its counters is at most the other's.  A clock that names more writers cannot be
before one that names fewer. -/
def before (a b : Clock) : Bool :=
  if b.size < a.size then false
  else if a = b then false
  else a.entries.all fun p => p.2 ≤ b.get p.1

/-- Whether neither clock is equal to or before the other. -/
def concurrent (a b : Clock) : Bool :=
  !(a = b || a.before b || b.before a)

/-- Where the first clock stands to the second; nothing if they are concurrent. -/
def compare? (a b : Clock) : Option Ordering :=
  if a = b then some .eq
  else if a.before b then some .lt
  else if b.before a then some .gt
  else none

/-! ### Showing -/

/-- One counter as it is shown. -/
def entryText (p : String × UInt64) : String :=
  p.1 ++ ":" ++ toString p.2.toNat

/-- The counters in order, between braces. -/
def text (c : Clock) : String :=
  "\x7b" ++ ", ".intercalate (c.entries.map entryText) ++ "\x7d"

/-! ### What the operations do to the counters -/

/-- The larger of two counters, read as a number. -/
theorem toNat_max (m n : UInt64) : (max m n).toNat = max m.toNat n.toNat := by
  have h : max m n = if m ≤ n then n else m := rfl
  rw [h]
  split
  · rename_i hle
    exact (Nat.max_eq_right (UInt64.le_iff_toNat_le.1 hle)).symm
  · rename_i hle
    exact (Nat.max_eq_left (Nat.le_of_not_le fun h => hle (UInt64.le_iff_toNat_le.2 h))).symm

/-- The counter zero raises nothing. -/
theorem max_zero (n : UInt64) : max n 0 = n := by
  apply UInt64.toNat_inj.1
  rw [toNat_max]
  simp

@[simp] theorem get_empty (id : String) : empty.get id = 0 := rfl

/-- A stored counter is read back, and no other is read. -/
theorem mem_entries_iff (c : Clock) {id : String} {n : UInt64} :
    (id, n) ∈ c.entries ↔ n ≠ 0 ∧ c.get id = n := by
  have hm := @KeyMap.mem_entries_iff _ c.counters id n
  constructor
  · intro h
    refine ⟨c.nonzero _ h, ?_⟩
    simp [get, hm.1 h]
  · rintro ⟨hn, hg⟩
    refine hm.2 ?_
    unfold get at hg
    cases hc : c.counters.get? id with
    | none => simp [hc] at hg; exact absurd hg.symm hn
    | some m => simpa [hc] using hg

/-- Two clocks that read the same for every writer are equal. -/
theorem ext_get {a b : Clock} (h : ∀ id, a.get id = b.get id) : a = b := by
  have hc : a.counters = b.counters := by
    refine KeyMap.ext_get? fun id => ?_
    have key : ∀ (c d : Clock), (∀ id, c.get id = d.get id) →
        ∀ n, c.counters.get? id = some n → d.counters.get? id = some n := by
      intro c d hcd n hn
      have hmem : (id, n) ∈ c.entries := (KeyMap.mem_entries_iff _).2 hn
      obtain ⟨hz, hg⟩ := (mem_entries_iff c).1 hmem
      exact (KeyMap.mem_entries_iff _).1 ((mem_entries_iff d).2 ⟨hz, hcd id ▸ hg⟩)
    cases ha : a.counters.get? id with
    | some n => exact (key a b h n ha).symm
    | none =>
      cases hb : b.counters.get? id with
      | none => rfl
      | some n => rw [key b a (fun id => (h id).symm) n hb] at ha; cases ha
  cases a
  cases b
  cases hc
  rfl

theorem get_set (c : Clock) (id : String) (n : UInt64) (hn : n ≠ 0) (x : String) :
    (c.set id n hn).get x = if id = x then n else c.get x := by
  simp only [get, set, KeyMap.get?_insert]
  split <;> simp

/-- An increment changes the counter of its own writer only. -/
theorem get_increment (c : Clock) (id x : String) :
    (c.increment id).get x = if id = x then next (c.get id) else c.get x :=
  get_set c id _ _ x

/-- Raising a counter to a maximum. -/
theorem get_set?_max (c : Clock) (id : String) (n : UInt64) (x : String) :
    (c.set? id (max (c.get id) n)).get x = if id = x then max (c.get id) n else c.get x := by
  unfold set?
  split
  · rename_i h
    split
    · rename_i hx
      subst hx
      rw [h]
      have hm := congrArg UInt64.toNat h
      rw [toNat_max] at hm
      apply UInt64.toNat_inj.1
      simp at hm ⊢
      omega
    · rfl
  · exact get_set c id _ _ x

/-- Raising the counters of a list of pairs one after the other. -/
theorem get_foldl_raise (l : List (String × UInt64)) (c : Clock) (x : String) :
    (l.foldl (fun c p => c.set? p.1 (max (c.get p.1) p.2)) c).get x =
      l.foldl (fun n p => if p.1 = x then max n p.2 else n) (c.get x) := by
  induction l generalizing c with
  | nil => rfl
  | cons p rest ih =>
    simp only [List.foldl_cons, ih, get_set?_max]
    split
    · rename_i h
      rw [h]
    · rfl

/-- A list of pairs without a writer does not raise its counter. -/
theorem foldl_raise_of_lookup_none {l : List (String × UInt64)} {x : String}
    (h : KeyMap.lookup x l = none) (n : UInt64) :
    l.foldl (fun n p => if p.1 = x then max n p.2 else n) n = n := by
  induction l with
  | nil => rfl
  | cons p rest ih =>
    simp only [KeyMap.lookup] at h
    split at h
    · cases h
    · rename_i hp
      simpa [hp] using ih h

/-- Ascending pairs raise a writer's counter to the one they give it. -/
theorem foldl_raise {l : List (String × UInt64)}
    (h : (l.map Prod.fst).Pairwise (· < ·)) (x : String) (n : UInt64) :
    l.foldl (fun n p => if p.1 = x then max n p.2 else n) n =
      max n ((KeyMap.lookup x l).getD 0) := by
  induction l generalizing n with
  | nil =>
    simp only [List.foldl_nil, KeyMap.lookup, Option.getD_none, max_zero]
  | cons p rest ih =>
    obtain ⟨k, v⟩ := p
    simp only [List.map_cons, List.pairwise_cons] at h
    simp only [List.foldl_cons, KeyMap.lookup]
    by_cases hk : k = x
    · subst hk
      simp only [if_true, Option.getD_some]
      exact foldl_raise_of_lookup_none (KeyMap.lookup_eq_none_of_lt h.1) _
    · simp [hk, ih h.2]

/-- A join reads the larger of the two counters. -/
theorem get_join (a b : Clock) (x : String) :
    (a.join b).get x = max (a.get x) (b.get x) := by
  unfold join
  rw [get_foldl_raise]
  exact foldl_raise b.counters.ascending x (a.get x)

end Clock

instance : ToString Clock := ⟨Clock.text⟩

end QuorumStore
