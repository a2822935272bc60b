/-
Finite maps from texts to values, kept as the list of their pairs in strictly
ascending order of the keys.  The order of texts is the order of their code
points, which is also the order of their UTF-8 bytes.

* `KeyMap.get?_insert`: an insertion changes the value of its own key only;
* `KeyMap.mem_entries_iff`: the pairs of a map are exactly what it reads;
* `KeyMap.ext_get?`: two maps that read the same at every key are equal, so the
  representation is canonical.
-/

namespace QuorumStore

/-- A finite map from texts to values. -/
structure KeyMap (α : Type) where
  /-- The pairs of the map. -/
  entries : List (String × α)
  /-- Keys occur once each, in ascending order. -/
  ascending : (entries.map Prod.fst).Pairwise (· < ·)

namespace KeyMap

variable {α : Type}

instance [DecidableEq α] : DecidableEq (KeyMap α) := fun a b =>
  if h : a.entries = b.entries then
    isTrue (by cases a; cases b; cases h; rfl)
  else
    isFalse fun hab => h (hab ▸ rfl)

/-! ### Reading -/

/-- The value that a list of pairs gives to a key. -/
def lookup (key : String) : List (String × α) → Option α
  | [] => none
  | (k, v) :: rest => if k = key then some v else lookup key rest

/-- The value of a key, if it has one. -/
def get? (m : KeyMap α) (key : String) : Option α :=
  lookup key m.entries

/-- The keys in ascending order. -/
def keys (m : KeyMap α) : List String :=
  m.entries.map Prod.fst

/-- How many keys have a value. -/
def size (m : KeyMap α) : Nat :=
  m.entries.length

/-- Whether no key has a value. -/
def isEmpty (m : KeyMap α) : Bool :=
  m.entries.isEmpty

/-! ### Building -/

/-- The map without a key. -/
def empty : KeyMap α := ⟨[], .nil⟩

instance : EmptyCollection (KeyMap α) := ⟨empty⟩

instance : Inhabited (KeyMap α) := ⟨empty⟩

/-- Puts a pair in its place, over the pair that has the same key. -/
def insertEntry (key : String) (value : α) : List (String × α) → List (String × α)
  | [] => [(key, value)]
  | (k, v) :: rest =>
    if key < k then (key, value) :: (k, v) :: rest
    else if k < key then (k, v) :: insertEntry key value rest
    else (key, value) :: rest

/-- Every key after an insertion is the new one or an old one. -/
theorem mem_keys_insertEntry {key k : String} {value : α} {l : List (String × α)}
    (h : k ∈ (insertEntry key value l).map Prod.fst) :
    k = key ∨ k ∈ l.map Prod.fst := by
  induction l with
  | nil => simpa [insertEntry] using h
  | cons p rest ih =>
    simp only [insertEntry] at h
    split at h
    · simpa using h
    · split at h
      · simp only [List.map_cons, List.mem_cons] at h ⊢
        rcases h with h | h
        · exact .inr (.inl h)
        · rcases ih h with h | h
          · exact .inl h
          · exact .inr (.inr h)
      · simp only [List.map_cons, List.mem_cons] at h ⊢
        rcases h with h | h
        · exact .inl h
        · exact .inr (.inr h)

/-- An insertion keeps the keys in ascending order. -/
theorem ascending_insertEntry (key : String) (value : α) {l : List (String × α)}
    (h : (l.map Prod.fst).Pairwise (· < ·)) :
    ((insertEntry key value l).map Prod.fst).Pairwise (· < ·) := by
  induction l with
  | nil => simp [insertEntry]
  | cons p rest ih =>
    obtain ⟨k, v⟩ := p
    simp only [List.map_cons, List.pairwise_cons] at h
    simp only [insertEntry]
    split
    · rename_i hk
      simp only [List.map_cons, List.pairwise_cons, List.mem_cons]
      refine ⟨fun x hx => ?_, h.1, h.2⟩
      rcases hx with rfl | hx
      · exact hk
      · exact String.lt_trans hk (h.1 x hx)
    · rename_i hk
      split
      · rename_i hk'
        simp only [List.map_cons, List.pairwise_cons]
        refine ⟨fun x hx => ?_, ih h.2⟩
        rcases mem_keys_insertEntry hx with rfl | hx
        · exact hk'
        · exact h.1 x hx
      · rename_i hk'
        have : key = k := String.le_antisymm (String.not_lt.1 hk') (String.not_lt.1 hk)
        subst this
        simpa using h

/-- Gives a key a value, in place of the one it had. -/
def insert (m : KeyMap α) (key : String) (value : α) : KeyMap α :=
  ⟨insertEntry key value m.entries, ascending_insertEntry key value m.ascending⟩

/-- The map of a list of pairs; of two pairs with one key the later counts. -/
def ofList (pairs : List (String × α)) : KeyMap α :=
  pairs.foldl (fun m p => m.insert p.1 p.2) empty

/-- The part of the map whose keys satisfy a test. -/
def filterKeys (keep : String → Bool) (m : KeyMap α) : KeyMap α :=
  ⟨m.entries.filter fun p => keep p.1,
    m.ascending.sublist (List.filter_sublist.map Prod.fst)⟩

/-! ### What the operations do to the view -/

@[simp] theorem get?_empty (key : String) : (empty : KeyMap α).get? key = none := rfl

/-- What an insertion into a list of pairs does to every key. -/
theorem lookup_insertEntry (key : String) (value : α) (l : List (String × α)) (k : String) :
    lookup k (insertEntry key value l) = if key = k then some value else lookup k l := by
  induction l with
  | nil => simp [insertEntry, lookup]
  | cons p rest ih =>
    obtain ⟨k', v'⟩ := p
    simp only [insertEntry]
    split
    · simp [lookup]
    · rename_i h₁
      split
      · rename_i h₂
        simp only [lookup, ih]
        by_cases hk : k' = k
        · subst hk
          have : key ≠ k' := fun h => String.lt_irrefl k' (h ▸ h₂)
          simp [this]
        · simp [hk]
      · rename_i h₂
        have : key = k' := String.le_antisymm (String.not_lt.1 h₂) (String.not_lt.1 h₁)
        subst this
        simp only [lookup]
        split <;> rfl

/-- An insertion changes the value of its own key only. -/
theorem get?_insert (m : KeyMap α) (key : String) (value : α) (k : String) :
    (m.insert key value).get? k = if key = k then some value else m.get? k :=
  lookup_insertEntry key value m.entries k

/-- In ascending pairs a key has the value that it is paired with. -/
theorem lookup_eq_some_iff {l : List (String × α)}
    (h : (l.map Prod.fst).Pairwise (· < ·)) {key : String} {value : α} :
    lookup key l = some value ↔ (key, value) ∈ l := by
  induction l with
  | nil => simp [lookup]
  | cons p rest ih =>
    obtain ⟨k, v⟩ := p
    simp only [List.map_cons, List.pairwise_cons] at h
    simp only [lookup, List.mem_cons, Prod.mk.injEq]
    by_cases hk : k = key
    · subst hk
      constructor
      · intro hv
        simp only [if_true, Option.some.injEq] at hv
        exact .inl ⟨rfl, hv.symm⟩
      · rintro (⟨-, rfl⟩ | hm)
        · simp
        · exact absurd (h.1 k (List.mem_map.2 ⟨_, hm, rfl⟩)) (String.lt_irrefl k)
    · simp [hk, ih h.2, Ne.symm hk]

/-- The pairs of a map are exactly what it reads. -/
theorem mem_entries_iff (m : KeyMap α) {key : String} {value : α} :
    (key, value) ∈ m.entries ↔ m.get? key = some value :=
  (lookup_eq_some_iff m.ascending).symm

/-- The keys of a map are those at which it reads something. -/
theorem mem_keys_iff (m : KeyMap α) {key : String} :
    key ∈ m.keys ↔ ∃ value, m.get? key = some value := by
  simp [keys, ← mem_entries_iff]

/-- The part of a map reads what the map does, at the keys that it keeps. -/
theorem get?_filterKeys (keep : String → Bool) (m : KeyMap α) (key : String) :
    (m.filterKeys keep).get? key = if keep key then m.get? key else none := by
  refine Option.ext fun value => ?_
  rw [← mem_entries_iff]
  simp only [filterKeys, List.mem_filter, mem_entries_iff]
  split <;> simp [*]

/-- A list of pairs reads nothing at a key below all of its keys. -/
theorem lookup_eq_none_of_lt {l : List (String × α)} {key : String}
    (h : ∀ k ∈ l.map Prod.fst, key < k) : lookup key l = none := by
  induction l with
  | nil => rfl
  | cons p rest ih =>
    have hp : key < p.1 := h p.1 (by simp)
    have : p.1 ≠ key := fun hk => String.lt_irrefl key (hk ▸ hp)
    simp only [lookup, this, if_false]
    exact ih fun k hk => h k (by simp [hk])

/-- Ascending lists of pairs that read the same are equal. -/
theorem entries_eq_of_lookup {l l' : List (String × α)}
    (h : (l.map Prod.fst).Pairwise (· < ·)) (h' : (l'.map Prod.fst).Pairwise (· < ·))
    (hl : ∀ k, lookup k l = lookup k l') : l = l' := by
  induction l generalizing l' with
  | nil =>
    cases l' with
    | nil => rfl
    | cons p rest => simpa [lookup] using hl p.1
  | cons p rest ih =>
    obtain ⟨k, v⟩ := p
    cases l' with
    | nil => simpa [lookup] using hl k
    | cons p' rest' =>
      obtain ⟨k', v'⟩ := p'
      simp only [List.map_cons, List.pairwise_cons] at h h'
      -- The least keys agree, since each is read on both sides.
      have hk : k = k' := by
        rcases Decidable.em (k < k') with hlt | hlt
        · have hn : lookup k ((k', v') :: rest') = none := by
            refine lookup_eq_none_of_lt fun x hx => ?_
            simp only [List.map_cons, List.mem_cons] at hx
            rcases hx with rfl | hx
            · exact hlt
            · exact String.lt_trans hlt (h'.1 x hx)
          exact absurd ((hl k).trans hn) (by simp [lookup])
        · rcases Decidable.em (k' < k) with hgt | hgt
          · have hn : lookup k' ((k, v) :: rest) = none := by
              refine lookup_eq_none_of_lt fun x hx => ?_
              simp only [List.map_cons, List.mem_cons] at hx
              rcases hx with rfl | hx
              · exact hgt
              · exact String.lt_trans hgt (h.1 x hx)
            exact absurd ((hl k').symm.trans hn) (by simp [lookup])
          · exact String.le_antisymm (String.not_lt.1 hgt) (String.not_lt.1 hlt)
      subst hk
      have hv : v = v' := by simpa [lookup] using hl k
      subst hv
      congr 1
      refine ih h.2 h'.2 fun x => ?_
      by_cases hx : k = x
      · subst hx
        rw [lookup_eq_none_of_lt h.1, lookup_eq_none_of_lt h'.1]
      · simpa [lookup, hx] using hl x

/-- Two maps that read the same at every key are equal. -/
theorem ext_get? {m m' : KeyMap α} (h : ∀ k, m.get? k = m'.get? k) : m = m' := by
  have he : m.entries = m'.entries := entries_eq_of_lookup m.ascending m'.ascending h
  cases m
  cases m'
  cases he
  rfl

end KeyMap

end QuorumStore
