/-
A store that is cut into parts: no key is lost, and every part fits into a frame.

* `Batch.Cut.Holds`: what the parts hold while a store is being cut;
* `Batch.exists_splitPairs_eq_ok`: keys that fit one by one can be cut;
* `Batch.splitPairs_eq_error`: a key that does not fit alone is refused;
* `Batch.utf8ByteSize_of_isJson`: the size of the message that pushes a part;
* `Batch.splitPairs_of_perm`: so a store is cut, in whatever order its keys come, into parts
  that share no key and fit into frames, unless one of its keys does not fit alone.
-/
import Mathlib.Data.List.Nodup
import Mathlib.Data.List.Perm.Basic
import Mathlib.Tactic.Lemma
import QuorumStore.Batch
import QuorumStore.Frame
import QuorumStore.Proofs.MessageSizes

namespace QuorumStore

/-! ### Entries of a map -/

namespace KeyMap

variable {α : Type}

lemma perm_insertEntry {k : String} {l : List (String × α)} (h : lookup k l = none) (v : α) :
    (insertEntry k v l).Perm ((k, v) :: l) := by
  induction l with
  | nil => exact .refl _
  | cons p rest ih =>
    obtain ⟨j, w⟩ := p
    have hj : j ≠ k := by
      rintro rfl
      simp [lookup] at h
    rw [lookup, if_neg hj] at h
    rw [insertEntry]
    split_ifs with hlt hgt
    · exact .refl _
    · exact ((ih h).cons (j, w)).trans (.swap (k, v) (j, w) rest)
    · exact absurd (String.le_antisymm (String.not_lt.1 hlt) (String.not_lt.1 hgt)) hj

/-- A new key is added to the entries. -/
lemma perm_entries_insert {m : KeyMap α} {k : String} (h : m.get? k = none) (v : α) :
    (m.insert k v).entries.Perm ((k, v) :: m.entries) :=
  perm_insertEntry h v

end KeyMap

namespace Batch

/-- The weight of keys with their versions. -/
def total : List (String × Siblings) → Nat
  | [] => 0
  | p :: rest => weight p + total rest

/-- What the parts hold while a store is being cut: the keys cut so far, within
the budget. -/
structure Cut.Holds (budget : Nat) (cut : List (String × Siblings)) (c : Cut) : Prop where
  /-- The parts hold the keys that were cut. -/
  perm : ((c.part :: c.closed).flatMap KeyMap.entries).Perm cut
  /-- The open part has the weight that is noted. -/
  used : c.used = total c.part.entries
  /-- Every part is within the budget. -/
  fits : ∀ part ∈ c.part :: c.closed, total part.entries ≤ budget
  /-- A part is not closed before it holds a key. -/
  filled : ∀ part ∈ c.closed, part.isEmpty = false

lemma total_cons (p : String × Siblings) (pairs : List (String × Siblings)) :
    total (p :: pairs) = weight p + total pairs := rfl

lemma total_perm {l l' : List (String × Siblings)} (h : l.Perm l') : total l = total l' := by
  induction h with
  | nil => rfl
  | cons p _ ih => rw [total_cons, total_cons, ih]
  | swap p q rest =>
    simp only [total_cons]
    omega
  | trans _ _ ih ih' => exact ih.trans ih'

variable {budget : Nat} {cut : List (String × Siblings)}

/-- One more key goes into the open part, or begins the next one. -/
lemma Cut.Holds.add {c : Cut} (hc : c.Holds budget cut) {p : String × Siblings}
    (hp : weight p ≤ budget) (hnew : p.1 ∉ cut.map Prod.fst) :
    (c.add budget p (weight p)).Holds budget (p :: cut) := by
  have hperm := hc.perm
  rw [List.flatMap_cons] at hperm
  rw [Cut.add]
  split_ifs with hfull
  · have single : (KeyMap.empty.insert p.1 p.2).entries = [p] := rfl
    refine ⟨?_, ?_, fun part hpart => ?_, fun part hpart => ?_⟩
    · rw [List.flatMap_cons, single, List.flatMap_cons]
      exact hperm.cons p
    · rw [single, total, total, Nat.add_zero]
    · rcases List.mem_cons.mp hpart with rfl | hpart
      · rw [single, total_cons]
        exact hp
      · exact hc.fits part hpart
    · rcases List.mem_cons.mp hpart with rfl | hpart
      · simpa using hfull.2
      · exact hc.filled part hpart
  · have absent : c.part.get? p.1 = none := by
      refine Option.eq_none_iff_forall_ne_some.mpr fun v hv => hnew ?_
      have hmem : (p.1, v) ∈ cut :=
        hperm.mem_iff.mp (List.mem_append_left _ ((KeyMap.mem_entries_iff c.part).mpr hv))
      exact List.mem_map.mpr ⟨_, hmem, rfl⟩
    have hinsert := KeyMap.perm_entries_insert absent p.2
    have hused : c.used + weight p = total (c.part.insert p.1 p.2).entries := by
      rw [total_perm hinsert, total_cons, hc.used, Nat.add_comm]
    refine ⟨?_, hused, fun part hpart => ?_, hc.filled⟩
    · rw [List.flatMap_cons]
      exact (hinsert.append_right _).trans (hperm.cons p)
    · rcases List.mem_cons.mp hpart with rfl | hpart
      · rw [← hused]
        by_cases hempty : c.part.isEmpty = true
        · have none : c.used = 0 := by
            rw [hc.used, List.isEmpty_iff.mp hempty]
            rfl
          omega
        · exact Nat.le_of_not_lt fun h => hfull ⟨h, hempty⟩
      · exact hc.fits part (List.mem_cons_of_mem _ hpart)

lemma holds_nil : Cut.Holds budget [] ⟨[], KeyMap.empty, 0⟩ := by
  refine ⟨.refl _, rfl, fun part hpart => ?_, nofun⟩
  obtain rfl := List.mem_singleton.mp hpart
  exact Nat.zero_le _

/-- Keys that fit one by one are cut, one after the other. -/
lemma exists_foldlM_eq_ok (maxFrame : Nat) {c : Cut} (hc : c.Holds budget cut)
    {pairs : List (String × Siblings)} (hfits : ∀ p ∈ pairs, weight p ≤ budget)
    (hnodup : ((cut ++ pairs).map Prod.fst).Nodup) :
    ∃ c' : Cut, c'.Holds budget (pairs.reverse ++ cut) ∧ pairs.foldlM (fun c p =>
      let w := weight p
      if budget < w then (.error (.tooLong maxFrame) : Except FrameError Cut)
      else .ok (c.add budget p w)) c = .ok c' := by
  induction pairs generalizing c cut with
  | nil => exact ⟨c, hc, rfl⟩
  | cons p rest ih =>
    have hp := hfits p List.mem_cons_self
    have middle : ((p :: (cut ++ rest)).map Prod.fst).Nodup :=
      (((List.perm_middle (a := p)).map Prod.fst).nodup_iff).mp hnodup
    have hnew : p.1 ∉ cut.map Prod.fst := by
      rw [List.map_cons, List.nodup_cons, List.map_append, List.mem_append, not_or] at middle
      exact middle.1.1
    obtain ⟨c', hc', hfold⟩ := ih (hc.add hp hnew)
      (fun q hq => hfits q (List.mem_cons_of_mem p hq)) middle
    refine ⟨c', by simpa using hc', ?_⟩
    rw [List.foldlM_cons, if_neg (Nat.not_lt.mpr hp)]
    exact hfold

/-- The parts of a store that was cut hold its keys, each within the budget, and none of them
is empty if there are keys. -/
lemma Cut.Holds.parts {c : Cut} (hc : c.Holds budget cut) :
    c.parts ≠ [] ∧ (c.parts.flatMap KeyMap.entries).Perm cut ∧
      (∀ part ∈ c.parts, total part.entries ≤ budget) ∧
      (cut ≠ [] → ∀ part ∈ c.parts, part.isEmpty = false) := by
  have hperm := hc.perm
  rw [Cut.parts]
  split_ifs with hall
  · refine ⟨by simp, ((List.reverse_perm _).flatMap_right _).trans hperm,
      fun part hpart => hc.fits part (List.mem_reverse.mp hpart), fun hcut part hpart => ?_⟩
    rcases List.mem_cons.mp (List.mem_reverse.mp hpart) with rfl | hclosed
    · rcases hall with hfilled | hnone
      · simpa using hfilled
      · -- the open part is the only one, so it holds what was cut
        rw [hnone, List.flatMap_cons, List.flatMap_nil, List.append_nil] at hperm
        exact Bool.eq_false_iff.mpr fun hempty =>
          hcut (List.isEmpty_iff.mp hempty ▸ hperm).nil_eq.symm
    · exact hc.filled part hclosed
  · rw [not_or, Decidable.not_not] at hall
    rw [List.flatMap_cons, List.isEmpty_iff.mp hall.1, List.nil_append] at hperm
    exact ⟨by simpa using hall.2, ((List.reverse_perm _).flatMap_right _).trans hperm,
      fun part hpart => hc.fits part (List.mem_cons_of_mem _ (List.mem_reverse.mp hpart)),
      fun _ part hpart => hc.filled part (List.mem_reverse.mp hpart)⟩

/-- **Keys that fit one by one can be cut**, in whatever order they come: the
parts hold them all, each within the budget, and none of them is empty if there are keys. -/
theorem exists_splitPairs_eq_ok {maxFrame : Nat} {pairs : List (String × Siblings)}
    (hnodup : (pairs.map Prod.fst).Nodup)
    (hfits : ∀ p ∈ pairs, weight p ≤ maxFrame - envelope) :
    ∃ parts, splitPairs maxFrame pairs = .ok parts ∧ parts ≠ [] ∧
      (parts.flatMap KeyMap.entries).Perm pairs ∧
      (∀ part ∈ parts, total part.entries ≤ maxFrame - envelope) ∧
      (pairs ≠ [] → ∀ part ∈ parts, part.isEmpty = false) := by
  obtain ⟨c, hc, hfold⟩ := exists_foldlM_eq_ok maxFrame holds_nil hfits hnodup
  rw [List.append_nil] at hc
  obtain ⟨hne, hperm, htotal, hfilled⟩ := hc.parts
  refine ⟨c.parts, ?_, hne, hperm.trans (List.reverse_perm pairs), htotal, fun hpairs => ?_⟩
  · rw [splitPairs, hfold]
    rfl
  · exact hfilled (by simpa using hpairs)

/-- A key that does not fit alone is refused, wherever it comes. -/
lemma splitPairs_eq_error {maxFrame : Nat} {pairs : List (String × Siblings)}
    (h : ∃ p ∈ pairs, maxFrame - envelope < weight p) :
    splitPairs maxFrame pairs = .error (.tooLong maxFrame) := by
  have key : ∀ c : Cut, pairs.foldlM (fun c p =>
      let w := weight p
      if maxFrame - envelope < w then (.error (.tooLong maxFrame) : Except FrameError Cut)
      else .ok (c.add (maxFrame - envelope) p w)) c = .error (.tooLong maxFrame) := by
    induction pairs with
    | nil => simp at h
    | cons p rest ih =>
      intro c
      rw [List.foldlM_cons]
      by_cases hp : maxFrame - envelope < weight p
      · rw [if_pos hp]
        rfl
      · rw [if_neg hp]
        rw [List.exists_mem_cons_iff, or_iff_right hp] at h
        exact ih h _
  rw [splitPairs, key]
  rfl

/-! ### The size of a part -/

/-- Keys with their versions weigh what they take as the members of an object. -/
lemma sum_memberSize (pairs : List (String × Siblings)) :
    ((pairs.map fun p => (p.1, Siblings.toJson p.2)).map Json.memberSize).sum = total pairs := by
  induction pairs with
  | nil => rfl
  | cons p rest ih =>
    rw [List.map_cons, List.map_cons, List.sum_cons, ih, total_cons]
    rfl

/-- **The size of the message that pushes a part**, in whatever order it lists the keys. -/
theorem utf8ByteSize_of_isJson {part : Store} {v : Json} (h : (Request.absorb part).IsJson v) :
    v.render.utf8ByteSize = max 42 (41 + total part.entries) := by
  obtain ⟨-, ⟨pairs, hpairs, rfl⟩, rfl⟩ := h
  have tag : (Json.text (Method.tag .absorb)).render.utf8ByteSize = 9 := rfl
  have store : (Json.text "store").render.utf8ByteSize = 7 := rfl
  rw [Request.method, utf8ByteSize_taggedJson, tag, Json.utf8ByteSize_obj]
  simp only [List.map_cons, List.map_nil, List.sum_cons, List.sum_nil, Json.memberSize, store,
    Store.listJson, Json.utf8ByteSize_obj]
  rw [sum_memberSize, total_perm hpairs]
  omega

/-- **A part within the budget fits into a frame.** -/
theorem fits_absorb {maxFrame : Nat} (hmax : envelope ≤ maxFrame) {part : Store}
    (hpart : total part.entries ≤ maxFrame - envelope) :
    (Request.absorb part).toJson.render.utf8ByteSize ≤ maxFrame := by
  have size := utf8ByteSize_of_isJson (Request.isJson_toJson (.absorb part))
  have budget : envelope = 64 := rfl
  omega

/-! ### Cutting a store -/

lemma one_lt_total {part : Store} (h : part.isEmpty = false) : 1 < total part.entries := by
  rw [KeyMap.isEmpty] at h
  cases hentries : part.entries with
  | nil => simp [hentries] at h
  | cons p rest =>
    rw [total_cons, weight]
    omega

/-- Parts that hold the keys of a store between them share no key. -/
lemma pairwise_disjoint_keys {store : Store} {parts : List Store}
    (h : (parts.flatMap KeyMap.entries).Perm store.entries) :
    parts.Pairwise fun a b => a.keys.Disjoint b.keys := by
  have hkeys : (parts.flatMap KeyMap.keys).Perm (store.entries.map Prod.fst) := by
    have hmap := h.map Prod.fst
    rwa [List.map_flatMap] at hmap
  exact (List.nodup_flatMap.mp (hkeys.nodup_iff.mpr store.nodup_keys)).2

/-- A key has in a store the versions that it has in one of the parts. -/
lemma get?_eq_some_iff_of_perm {store : Store} {parts : List Store}
    (h : (parts.flatMap KeyMap.entries).Perm store.entries) (key : String) (versions : Siblings) :
    store.get? key = some versions ↔ ∃ part ∈ parts, part.get? key = some versions := by
  rw [← KeyMap.mem_entries_iff, ← h.mem_iff, List.mem_flatMap]
  simp only [KeyMap.mem_entries_iff]

/-- **Cutting a store.**  Let the keys of a store come in any order.  The store is refused as
too long exactly if some key with its versions takes more than what a frame leaves for them.
Otherwise it is cut into parts that share no key and have the keys and the versions of the
store between them.  No part is empty, except that the empty store gives one empty part.  The
message that pushes a part fits into a frame, in whatever order it lists the keys, except that
the one of the empty part takes 42 bytes, however short a frame is. -/
theorem splitPairs_of_perm {store : Store} {pairs : List (String × Siblings)}
    (hpairs : pairs.Perm store.entries) (maxFrame : ℕ) :
    let tooLong := ∃ p ∈ store.entries, maxFrame - 64 <
      (Json.text p.1).render.utf8ByteSize + (Siblings.toJson p.2).render.utf8ByteSize + 2
    (splitPairs maxFrame pairs = .error (.tooLong maxFrame) ↔ tooLong) ∧
    (¬ tooLong → ∃ parts, splitPairs maxFrame pairs = .ok parts ∧
      parts.Pairwise (fun a b => a.keys.Disjoint b.keys) ∧
      (∀ key versions, store.get? key = some versions ↔
        ∃ part ∈ parts, part.get? key = some versions) ∧
      (store ≠ ∅ → ∀ part ∈ parts, part.isEmpty = false) ∧
      (store = ∅ → parts = [∅]) ∧
      ∀ part ∈ parts, ∀ v, (Request.absorb part).IsJson v →
        (v.render.utf8ByteSize ≤ maxFrame ↔ ¬ (store = ∅ ∧ maxFrame < 42))) := by
  intro tooLong
  have hrefused : tooLong → splitPairs maxFrame pairs = .error (.tooLong maxFrame) := by
    rintro ⟨p, hp, hlong⟩
    exact splitPairs_eq_error ⟨p, hpairs.mem_iff.mpr hp, hlong⟩
  have hcut : ¬ tooLong → ∃ parts, splitPairs maxFrame pairs = .ok parts ∧ parts ≠ [] ∧
      (parts.flatMap KeyMap.entries).Perm pairs ∧
      (∀ part ∈ parts, total part.entries ≤ maxFrame - envelope) ∧
      (pairs ≠ [] → ∀ part ∈ parts, part.isEmpty = false) := fun hfits => by
    refine exists_splitPairs_eq_ok (((hpairs.map Prod.fst).nodup_iff).mpr store.nodup_keys)
      fun p hp => Nat.not_lt.mp fun hlong => hfits ⟨p, hpairs.mem_iff.mp hp, hlong⟩
  refine ⟨⟨fun herror => ?_, hrefused⟩, fun hfits => ?_⟩
  · by_contra hfits
    obtain ⟨parts, hok, -⟩ := hcut hfits
    rw [herror] at hok
    cases hok
  · obtain ⟨parts, hok, hne, hperm, htotal, hfilled⟩ := hcut hfits
    have hstore := hperm.trans hpairs
    have hempty : store = ∅ → pairs = [] := by
      rintro rfl
      exact hpairs.eq_nil
    have hkeys : store ≠ ∅ → pairs ≠ [] := by
      rintro hne rfl
      exact hne (KeyMap.ext_get? fun key => by rw [KeyMap.get?, hpairs.nil_eq.symm]; rfl)
    have hsingle : store = ∅ → parts = [∅] := fun h => by
      rw [hempty h] at hok
      exact (Except.ok.inj hok).symm
    refine ⟨parts, hok, pairwise_disjoint_keys hstore, get?_eq_some_iff_of_perm hstore,
      fun h => hfilled (hkeys h), hsingle, fun part hpart v hv => ?_⟩
    have hsize := utf8ByteSize_of_isJson hv
    by_cases h : store = ∅
    · obtain rfl : part = ∅ := by simpa [hsingle h] using hpart
      have hnone : total (∅ : Store).entries = 0 := rfl
      rw [hsize, hnone, and_iff_right h, Nat.not_lt]
      rfl
    · -- what holds a key weighs something, so a frame has room for more than the envelope
      have hweight := one_lt_total (hfilled (hkeys h) part hpart)
      have hwithin := htotal part hpart
      have hbudget : envelope = 64 := rfl
      simp only [h, false_and, not_false_eq_true, iff_true]
      omega

/-- Two keys that weigh 54 and 88 bytes, the first of them with an escaped character, listed
from the end.  Frames of 152 bytes take one of them each, and one of 151 bytes is too short. -/
theorem splitPairs_of_perm_escaped :
    let v : Version := ⟨.ofPairs [("n1", 1)], [1]⟩
    let store : Store := KeyMap.ofList [("a\"", [v]), ("b", [v, default])]
    let pairs := store.entries.reverse
    pairs.Perm store.entries ∧ splitPairs 151 pairs = .error (.tooLong 151) ∧
      ∃ parts, splitPairs 152 pairs = .ok parts ∧ parts.length = 2 ∧
        parts.Pairwise (fun a b => a.keys.Disjoint b.keys) ∧
        (∃ part ∈ parts, part.get? "b" = some [v, default]) ∧
        ∀ part ∈ parts, part.isEmpty = false ∧
          (Request.absorb part).toJson.render.utf8ByteSize ≤ 152 := by
  intro v store pairs
  have hperm : pairs.Perm store.entries := List.reverse_perm _
  have hne : store ≠ ∅ := by decide +kernel
  obtain ⟨parts, hok, hdisjoint, hget, hfilled, -, hframes⟩ :=
    (splitPairs_of_perm hperm 152).2 (by decide +kernel)
  have hlength : (splitPairs 152 pairs).toOption.map List.length = some 2 := by decide +kernel
  rw [hok] at hlength
  refine ⟨hperm, (splitPairs_of_perm hperm 151).1.mpr (by decide +kernel), parts, hok,
    Option.some.inj hlength, hdisjoint, (hget _ _).mp (by decide +kernel), fun part hpart =>
      ⟨hfilled hne part hpart, ?_⟩⟩
  exact (hframes part hpart _ (Request.isJson_toJson (.absorb part))).mpr fun h => hne h.1

end Batch

end QuorumStore
