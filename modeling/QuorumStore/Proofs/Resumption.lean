/-
A store that is pushed in parts.  A push may stop after any part, and begin again later.

* `Store.get?_absorbEach_of_mem`, `Store.get?_absorbEach_of_not_mem`: each key is merged by
  itself, and a key that is not given is left alone;
* `Store.absorbEach_append_of_absorbed`: what was merged before brings nothing again;
* `Replica.absorbParts_of_cutInto`: so the parts of a store come to what the whole comes to, and
  what a push that stopped has left out is made up for by a later one.
-/
import QuorumStore.Proofs.Admission
import QuorumStore.Proofs.KeyIndependence
import QuorumStore.Proofs.Transport

namespace QuorumStore

/-! ### Merging key by key -/

namespace Store

variable {s : Store} {pairs pairs' : List (String × Siblings)}

/-- A key that is not given is left alone. -/
lemma get?_absorbEach_of_not_mem {key : String} (h : key ∉ pairs.map Prod.fst) :
    (s.absorbEach pairs).2.get? key = s.get? key := by
  have hnone : pairs.filter (fun p => p.1 = key) = [] := List.filter_eq_nil_iff.mpr
    fun p hp heq => h (List.mem_map.mpr ⟨p, hp, of_decide_eq_true heq⟩)
  rw [get?_absorbEach_filter rfl, hnone, snd_absorbEach_nil]

/-- A key that is given once is merged as if it came alone. -/
lemma get?_absorbEach_of_mem (hnodup : (pairs.map Prod.fst).Nodup) {p : String × Siblings}
    (hp : p ∈ pairs) : (s.absorbEach pairs).2.get? p.1 = (s.absorb p.1 p.2).2.get? p.1 := by
  induction pairs generalizing s with
  | nil => exact absurd hp List.not_mem_nil
  | cons q rest ih =>
    rw [List.map_cons, List.nodup_cons] at hnodup
    rw [snd_absorbEach_cons]
    rcases List.mem_cons.mp hp with rfl | hp
    · exact get?_absorbEach_of_not_mem hnodup.1
    · have hne : q.1 ≠ p.1 := fun heq => hnodup.1 (heq ▸ List.mem_map_of_mem hp)
      rw [ih hnodup.2 hp]
      exact (absorb_congr (get?_absorb_of_ne hne) p.2).2

/-- What a store has absorbed brings it nothing when it comes again. -/
theorem absorbEach_append_of_absorbed (pairs pairs' : List (String × Siblings)) :
    (s.absorbEach pairs).2.absorbEach (pairs ++ pairs') =
      (s.absorbEach pairs).2.absorbEach pairs' := by
  have hknows : ∀ p ∈ pairs, ∀ w ∈ p.2, (s.absorbEach pairs).2.Knows p.1 w.clock :=
    fun p hp w hw => knows_absorbEach_iff.mpr (.inr ⟨p, hp, rfl, Siblings.covers_of_mem hw⟩)
  rw [absorbEach_append, absorbEach_of_knows hknows, Nat.zero_add]

end Store

/-! ### Parts of a store -/

/-- Lists of keys with their versions are parts of a store if they have its keys between them,
each key once and with all of its versions. -/
def Store.CutInto (s : Store) (parts : List (List (String × Siblings))) : Prop :=
  parts.flatten.Perm s.entries

namespace Batch

variable {store : Store} {pairs : List (String × Siblings)} {stores : List Store}

lemma perm_of_splitPairs {maxFrame : ℕ} (hpairs : pairs.Perm store.entries)
    (h : splitPairs maxFrame pairs = .ok stores) :
    (stores.flatMap KeyMap.entries).Perm store.entries := by
  have hnodup : (pairs.map Prod.fst).Nodup :=
    ((hpairs.map Prod.fst).nodup_iff).mpr store.nodup_keys
  have hfits : ∀ p ∈ pairs, weight p ≤ maxFrame - envelope := fun p hp => by
    by_contra hlong
    rw [splitPairs_eq_error ⟨p, hp, Nat.not_le.mp hlong⟩] at h
    cases h
  obtain ⟨parts, hok, -, hperm, -⟩ := exists_splitPairs_eq_ok hnodup hfits
  obtain rfl : parts = stores := Except.ok.inj (hok.symm.trans h)
  exact hperm.trans hpairs

/-- Stores give parts, whatever their order and that of their keys. -/
lemma cutInto_of_perm {stores' : List Store}
    (h : (stores.flatMap KeyMap.entries).Perm store.entries) (hstores : stores'.Perm stores)
    {parts : List (List (String × Siblings))}
    (hparts : List.Forall₂ (fun part s => part.Perm (KeyMap.entries s)) parts stores') :
    store.CutInto parts := by
  have hlisted : parts.flatten.Perm (stores'.flatMap KeyMap.entries) := by
    clear hstores
    induction hparts with
    | nil => exact .refl _
    | cons hpart _ ih =>
      rw [List.flatten_cons, List.flatMap_cons]
      exact hpart.append ih
  exact hlisted.trans ((hstores.flatMap_right _).trans h)

end Batch

/-! ### Pushing in parts -/

namespace Replica

variable {r : Replica}

/-- Merges the parts of a store one after the other, the keys of each in a given order, and
tells what is answered. -/
def absorbParts (r : Replica) : List (List (String × Siblings)) →
    List (Except Refusal Unit) × Replica
  | [] => ([], r)
  | part :: rest =>
    let (answer, q) := r.absorbEach part
    let (answers, q) := q.absorbParts rest
    (answer :: answers, q)

/-- A replica that has merged versions. -/
def absorbed (r : Replica) (pairs : List (String × Siblings)) : Replica :=
  { r with
    store := (r.store.absorbEach pairs).2
    tally := { r.tally with accepted := r.tally.accepted + (r.store.absorbEach pairs).1 } }

lemma absorbEach_of_up (hup : r.outage.down = false) (pairs : List (String × Siblings)) :
    r.absorbEach pairs = (.ok (), r.absorbed pairs) := by
  rw [absorbEach, Outage.available, hup]
  rfl

lemma absorbed_append (pairs pairs' : List (String × Siblings)) :
    r.absorbed (pairs ++ pairs') = (r.absorbed pairs).absorbed pairs' := by
  simp only [absorbed, Store.absorbEach_append, Nat.add_assoc]

/-- Parts of a store come to what their keys come to if they are merged at once. -/
lemma absorbParts_of_up (hup : r.outage.down = false) (parts : List (List (String × Siblings))) :
    r.absorbParts parts = (parts.map fun _ => .ok (), r.absorbed parts.flatten) := by
  induction parts generalizing r with
  | nil => rfl
  | cons part rest ih =>
    have hrest := ih (r := r.absorbed part) hup
    rw [absorbParts, absorbEach_of_up hup]
    simp only [hrest, List.flatten_cons, absorbed_append, List.map_cons]

end Replica

/-- **Pushing in parts.**  Let a store be pushed to a replica in service.  It is cut into parts
anyhow, as long as no key is cut; the parts come in any order, and each lists its keys in any
order.
* Every part is taken, and the replica gets to where the whole store would have brought it with
  its keys in any order: it holds the same versions of each key in the same order, and has
  counted as many new ones.
* If only some parts arrive, then the versions of their keys are merged into what the replica
  has, and its other keys are as they were.
* Let the replica then hold the same store, and be in service, at a later time.  If the pushed
  store comes again, perhaps cut in another way, then the replica holds what it would have held
  after a push that had not stopped.
* What is pushed over connections is cut into such parts. -/
theorem Replica.absorbParts_of_cutInto {r : Replica} (hup : r.outage.down = false)
    {pushed : Store} {pairs : List (String × Siblings)} (hpairs : pairs.Perm pushed.entries) :
    let whole := (r.absorbEach pairs).2
    (∀ parts, pushed.CutInto parts →
      r.absorbParts parts = (parts.map fun _ => .ok (), whole)) ∧
    (∀ arrived missing, pushed.CutInto (arrived ++ missing) →
      let q := (r.absorbParts arrived).2
      (∀ p ∈ arrived.flatten, q.store.get? p.1 = (r.store.absorb p.1 p.2).2.get? p.1 ∧
        ((r.store.versions p.1).Antichain →
          q.store.versions p.1 = ((r.store.versions p.1).merge p.2).versions)) ∧
      (∀ key ∉ arrived.flatten.map Prod.fst, q.store.get? key = r.store.get? key) ∧
      ∀ later : Replica, later.outage.down = false → later.store = q.store →
        ∀ parts, pushed.CutInto parts → (later.absorbParts parts).2.store = whole.store) ∧
    ∀ maxFrame stores, Batch.splitPairs maxFrame pairs = .ok stores →
      ∀ stores', stores'.Perm stores → ∀ parts,
        List.Forall₂ (fun part store => part.Perm (KeyMap.entries store)) parts stores' →
          pushed.CutInto parts := by
  intro whole
  have hwhole : whole = r.absorbed pairs := congrArg Prod.snd (absorbEach_of_up hup pairs)
  have hkeys : ∀ {listed : List (String × Siblings)}, listed.Perm pushed.entries →
      (listed.map Prod.fst).Nodup :=
    fun h => ((h.map Prod.fst).nodup_iff).mpr pushed.nodup_keys
  have hsame : ∀ {listed : List (String × Siblings)} (s : Store), listed.Perm pushed.entries →
      s.absorbEach listed = s.absorbEach pairs :=
    fun s h => Store.absorbEach_perm (h.trans hpairs.symm) (hkeys h) s
  refine ⟨fun parts hparts => ?_, fun arrived missing hsplit => ?_, ?_⟩
  · rw [absorbParts_of_up hup, hwhole, absorbed, hsame r.store hparts]
    rfl
  · intro q
    have hq : q.store = (r.store.absorbEach arrived.flatten).2 :=
      congrArg (fun x => x.2.store) (absorbParts_of_up hup arrived)
    rw [Store.CutInto, List.flatten_append] at hsplit
    have hnodup : (arrived.flatten.map Prod.fst).Nodup := by
      have hall := hkeys hsplit
      rw [List.map_append] at hall
      exact hall.of_append_left
    refine ⟨fun p hp => ?_, fun key hkey => ?_, fun later hlater hstore parts hparts => ?_⟩
    · rw [hq]
      refine ⟨Store.get?_absorbEach_of_mem hnodup hp, fun hantichain => ?_⟩
      rw [Store.versions_absorbEach_of_mem hnodup hp, Store.versions_absorb_of_antichain hantichain]
    · rw [hq, Store.get?_absorbEach_of_not_mem hkey]
    · -- the keys that arrived before come first, and then those that were missing
      calc (later.absorbParts parts).2.store
          = (later.store.absorbEach parts.flatten).2 := by
            rw [absorbParts_of_up hlater, absorbed]
        _ = ((r.store.absorbEach arrived.flatten).2.absorbEach
              (arrived.flatten ++ missing.flatten)).2 := by
            rw [hstore, hq, hsame _ hparts, hsame _ hsplit]
        _ = (r.store.absorbEach (arrived.flatten ++ missing.flatten)).2 := by
            rw [Store.absorbEach_append_of_absorbed, Store.snd_absorbEach_append]
        _ = whole.store := by rw [hsame _ hsplit, hwhole, absorbed]
  · intro maxFrame stores hcut stores' hstores parts hparts
    exact Batch.cutInto_of_perm (Batch.perm_of_splitPairs hpairs hcut) hstores hparts

/-- Of three keys the middle one arrives, where it joins a concurrent version, and the push stops.
Then the store is pushed in two other parts. -/
theorem Replica.absorbParts_of_cutInto_resumed :
    let v : Version := ⟨.ofPairs [("n1", 1)], [1]⟩
    let w : Version := ⟨.ofPairs [("n2", 1)], [2]⟩
    let r : Replica :=
      { Replica.new ⟨"h", 1⟩ "n1" ⟨1, 1⟩ 1000 with
        store := KeyMap.ofList [("b", [v]), ("c", [v])] }
    let pushed : Store := KeyMap.ofList [("a", [w]), ("b", [w]), ("c", [v, w])]
    let whole := (r.absorbEach pushed.entries.reverse).2
    let q := (r.absorbParts [[("b", [w])]]).2
    r.outage.down = false ∧ pushed.entries.reverse.Perm pushed.entries ∧
      q.store.versions "b" = [v, w] ∧ q.store.get? "a" = none ∧ q.store.get? "c" = some [v] ∧
      (q.absorbParts [[("c", [v, w]), ("b", [w])], [("a", [w])]]).2.store = whole.store ∧
      whole.store.versions "c" = [v, w] ∧ whole.tally.accepted = 3 := by
  intro v w r pushed whole q
  have hperm : pushed.entries.reverse.Perm pushed.entries := List.reverse_perm _
  obtain ⟨-, hsome, -⟩ := absorbParts_of_cutInto (r := r) rfl hperm
  obtain ⟨hmerged, hkept, hresumed⟩ :=
    hsome [[("b", [w])]] [[("c", [v, w])], [("a", [w])]] (by unfold Store.CutInto; decide +kernel)
  have hb := (hmerged ("b", [w]) (by simp)).2 (by decide +kernel)
  refine ⟨rfl, hperm, hb.trans (by decide +kernel),
    (hkept "a" (by decide)).trans (by decide +kernel),
    (hkept "c" (by decide)).trans (by decide +kernel),
    hresumed q rfl rfl _ (by unfold Store.CutInto; decide +kernel), by decide +kernel,
    by decide +kernel⟩

end QuorumStore
