/-
What a replica has to be given for its version sets to stay antichains.  A merge
compares incoming versions with the held ones only, so two incoming versions of
which one is before the other are both taken over.

* `Store.antichains_absorbEach_iff`: from antichains a store gets to antichains if and
  only if what is new to it in each incoming set is one;
* `Store.versions_fst_absorb_iff`: a store holds the set that a merge returns if and
  only if the merge brings something new or drops nothing;
* `Replica.antichains_run_iff`: so it is in every state of a replica, and an ordered
  set from outside gets into it (`Replica.not_antichain_of_ordered`).
-/
import QuorumStore.Proofs.Knowledge

namespace QuorumStore

namespace Store

variable {s t : Store} {key k : String} {incoming : Siblings} {pairs : List (String × Siblings)}

/-- The incoming versions of a key that nothing in a store covers. -/
def news (s : Store) (key : String) (incoming : Siblings) : Siblings :=
  incoming.filter (s.versions key).isFresh

/-- The versions of every key are pairwise concurrent. -/
def Antichains (s : Store) : Prop :=
  ∀ key, (s.versions key).Antichain

/-! ### One key -/

/-- What becomes of the versions of a key does not depend on the other keys. -/
lemma versions_absorb_congr (h : s.versions key = t.versions key) :
    (s.absorb key incoming).2.versions key = (t.absorb key incoming).2.versions key := by
  rw [versions_absorb, versions_absorb, h]

/-- A store holds what a merge returned, unless the merge dropped versions and brought
nothing new. -/
theorem versions_fst_absorb_iff :
    (s.absorb key incoming).1.versions = (s.absorb key incoming).2.versions key ↔
      (∃ w ∈ incoming, ¬ s.Knows key w.clock) ∨
        ∀ v ∈ s.versions key, ∀ w ∈ incoming, ¬ v.clock < w.clock := by
  change ((s.versions key).merge incoming).versions = _ ↔ _
  by_cases hchanged : ((s.versions key).merge incoming).changed = true
  · rw [versions_absorb, if_pos hchanged]
    exact iff_of_true rfl (.inl (Siblings.changed_merge_iff.mp hchanged))
  · have hold : ¬ ∃ w ∈ incoming, ¬ s.Knows key w.clock := fun hnew =>
      hchanged (Siblings.changed_merge_iff.mpr hnew)
    have hnone : incoming.filter (s.versions key).isFresh = [] :=
      List.filter_eq_nil_iff.mpr fun w hw hfresh =>
        hold ⟨w, hw, Siblings.isFresh_iff.mp hfresh⟩
    rw [versions_absorb, if_neg hchanged, Siblings.merge_versions, hnone, List.append_nil,
      List.filter_eq_self, or_iff_right hold]
    simp only [Siblings.survives_iff]

/-- A store with an antichain holds what a merge returned. -/
lemma versions_absorb_of_antichain (h : (s.versions key).Antichain) :
    (s.absorb key incoming).2.versions key = ((s.versions key).merge incoming).versions := by
  rw [versions_absorb]
  split
  · rfl
  · rename_i hchanged
    exact (Siblings.merge_of_not_changed h hchanged).symm

/-! ### Several keys -/

lemma versions_absorbEach_of_not_mem (h : k ∉ pairs.map Prod.fst) :
    (s.absorbEach pairs).2.versions k = s.versions k := by
  induction pairs generalizing s with
  | nil => rfl
  | cons p rest ih =>
    rw [List.map_cons, List.mem_cons, not_or] at h
    rw [snd_absorbEach_cons, ih h.2, versions_absorb_of_ne (Ne.symm h.1)]

/-- Of sets for different keys each is absorbed as if it came alone. -/
lemma versions_absorbEach_of_mem (hnodup : (pairs.map Prod.fst).Nodup)
    (h : (k, incoming) ∈ pairs) :
    (s.absorbEach pairs).2.versions k = (s.absorb k incoming).2.versions k := by
  induction pairs generalizing s with
  | nil => exact absurd h List.not_mem_nil
  | cons p rest ih =>
    rw [List.map_cons, List.nodup_cons] at hnodup
    rw [snd_absorbEach_cons]
    rcases List.mem_cons.mp h with rfl | hrest
    · exact versions_absorbEach_of_not_mem hnodup.1
    · have hne : p.1 ≠ k := fun heq =>
        hnodup.1 (heq ▸ List.mem_map.mpr ⟨(k, incoming), hrest, rfl⟩)
      rw [ih hnodup.2 hrest]
      exact versions_absorb_congr (versions_absorb_of_ne hne)

/-- **What a store may be given.**  Sets for different keys leave antichains as such if
and only if what is new in each of them is an antichain. -/
theorem antichains_absorbEach_iff (h : s.Antichains) (hnodup : (pairs.map Prod.fst).Nodup) :
    (s.absorbEach pairs).2.Antichains ↔ ∀ p ∈ pairs, (s.news p.1 p.2).Antichain := by
  have hpair : ∀ p ∈ pairs, ((s.absorbEach pairs).2.versions p.1).Antichain ↔
      (s.news p.1 p.2).Antichain := fun p hp => by
    rw [versions_absorbEach_of_mem hnodup hp, versions_absorb_of_antichain (h p.1)]
    exact Siblings.antichain_merge_iff (h p.1)
  constructor
  · exact fun hafter p hp => (hpair p hp).mp (hafter p.1)
  · intro hnews key
    by_cases hkey : key ∈ pairs.map Prod.fst
    · obtain ⟨p, hp, rfl⟩ := List.mem_map.mp hkey
      exact (hpair p hp).mpr (hnews p hp)
    · rw [versions_absorbEach_of_not_mem hkey]
      exact h key

end Store

/-- A request gives one set for each of its keys. -/
lemma Request.nodup_given (request : Request) (id : String) :
    ((request.given id).map Prod.fst).Nodup := by
  cases request with
  | absorb pushed =>
    refine List.Pairwise.imp (fun {k k'} (hlt : k < k') (heq : k = k') => ?_) pushed.ascending
    exact String.lt_irrefl k' (heq ▸ hlt)
  | put key context value => exact List.nodup_singleton _
  | replicate key versions => exact List.nodup_singleton _
  | _ => exact List.nodup_nil

namespace Replica

variable {r : Replica} {request : Request} {answers : List Answer}

/-! ### Runs -/

/-- A request leaves antichains as such if and only if what it gives that is new is made
of antichains, or the replica is out of service. -/
lemma antichains_act_iff (h : r.store.Antichains) :
    (r.act (.request request answers)).2.store.Antichains ↔
      (r.outage.down = false → ∀ p ∈ request.given r.id, (r.store.news p.1 p.2).Antichain) := by
  rw [store_act_request]
  by_cases hdown : r.outage.down = true
  · simpa [hdown] using h
  · rw [if_neg hdown, Store.antichains_absorbEach_iff h (request.nodup_given r.id),
      forall_prop_of_true (Bool.eq_false_iff.mpr hdown)]

/-- **Antichains at rest.**  Let the version sets of a replica be antichains.  They are
so after each of some events if and only if each request that comes in service is about
sets of which the new versions are pairwise concurrent.

In any state whatsoever the set that a merge returns for a key is the set then held for
the key, unless the merge dropped versions and brought nothing new.  Where all sets are
antichains it never is another. -/
theorem antichains_run_iff (r : Replica) (hrest : r.store.Antichains) (events : List Event) :
    ((∀ before, before <+: events → (r.run before).store.Antichains) ↔
      ∀ before request answers, before ++ [.request request answers] <+: events →
        (r.run before).outage.down = false → ∀ p ∈ request.given (r.run before).id,
          ((r.run before).store.news p.1 p.2).Antichain) ∧
    ∀ before request answers, (r.run before).outage.down = false →
      ∀ p ∈ request.given (r.run before).id,
        let q := r.run before
        let returned := (q.store.absorb p.1 p.2).1.versions
        let held := (q.act (.request request answers)).2.store.versions p.1
        (returned = held ↔ (∃ w ∈ p.2, ¬ q.store.Knows p.1 w.clock) ∨
          ∀ v ∈ q.store.versions p.1, ∀ w ∈ p.2, ¬ v.clock < w.clock) ∧
        (q.store.Antichains → returned = held) := by
  have hact : ∀ before event, r.run (before ++ [event]) = ((r.run before).act event).2 :=
    fun before event => r.run_append before [event]
  refine ⟨⟨fun h before request answers hprefix => ?_, fun h before => ?_⟩,
    fun before request answers hup p hp => ?_⟩
  · have hafter := h _ hprefix
    rw [hact] at hafter
    exact (antichains_act_iff (h _ ((List.prefix_append _ _).trans hprefix))).mp hafter
  · -- along the events, the last one first
    induction before using List.reverseRecOn with
    | nil => exact fun _ => hrest
    | append_singleton before event ih =>
      intro hprefix
      have hbefore := ih ((List.prefix_append _ _).trans hprefix)
      rw [hact]
      cases event with
      | recovery => exact hbefore
      | request request answers =>
        exact (antichains_act_iff hbefore).mpr (h before request answers hprefix)
  · have hheld : ((r.run before).act (.request request answers)).2.store.versions p.1
        = ((r.run before).store.absorb p.1 p.2).2.versions p.1 := by
      rw [store_act_request, if_neg (by simp [hup]),
        Store.versions_absorbEach_of_mem (request.nodup_given _) hp]
    dsimp only
    rw [hheld]
    exact ⟨Store.versions_fst_absorb_iff,
      fun h => (Store.versions_absorb_of_antichain (h p.1)).symm⟩

/-- A replica that holds the first of two ordered versions is given both.  The first is
not new to it, so its versions stay an antichain. -/
theorem antichains_run_iff_held :
    let first : Version := ⟨.ofPairs [("n1", 1)], [1]⟩
    let second : Version := ⟨.ofPairs [("n1", 2)], [2]⟩
    let r := { Replica.new ⟨"localhost", 8000⟩ "n1" ⟨1, 1⟩ 500 with
      store := KeyMap.ofList [("k", [first])] }
    let event : Event := .request (.replicate "k" [first, second]) []
    r.store.Antichains ∧ ¬ Siblings.Antichain [first, second] ∧
      (r.run [event]).store.Antichains ∧
      (r.store.absorb "k" [first, second]).1.versions = (r.act event).2.store.versions "k" := by
  intro first second r event
  have hrest : r.store.Antichains := fun key => by
    simp only [r, Store.versions, KeyMap.ofList, List.foldl_cons, List.foldl_nil,
      KeyMap.get?_insert, KeyMap.get?_empty]
    split
    · exact Siblings.antichain_singleton first
    · exact List.Pairwise.nil
  have hnews : (r.store.news "k" [first, second]).Antichain := by decide +kernel
  have hgiven : ("k", [first, second]) ∈ Request.given r.id (.replicate "k" [first, second]) :=
    List.mem_singleton_self _
  obtain ⟨hruns, hreturned⟩ := antichains_run_iff r hrest [event]
  refine ⟨hrest, by decide +kernel, hruns.mpr ?_ _ List.prefix_rfl,
    (hreturned [] _ [] rfl _ hgiven).2 hrest⟩
  intro before request answers hprefix _ p hp
  obtain ⟨rest, hrest'⟩ := hprefix
  obtain ⟨rfl, heq, -⟩ : before = [] ∧ .request request answers = event ∧ rest = [] := by
    simpa [List.append_eq_singleton_iff] using hrest'
  obtain ⟨rfl, -⟩ := Event.request.inj heq
  obtain rfl := List.mem_singleton.mp hp
  exact hnews

/-- **An ordered set from outside.**  A replica that holds nothing takes over two
versions of which the first is before the second.  When the second is sent to it alone,
the merge returns the second, while the replica keeps both. -/
theorem not_antichain_of_ordered :
    let r := Replica.new ⟨"localhost", 8000⟩ "n1" ⟨1, 1⟩ 500
    let first : Version := ⟨.ofPairs [("a", 1)], [120]⟩
    let second : Version := ⟨.ofPairs [("a", 2)], [121]⟩
    let both : Event := .request (.replicate "k" [first, second]) []
    let again : Event := .request (.replicate "k" [second]) []
    let q := r.run [both]
    (r.act both).1 = some (.ok (.replicate true)) ∧
      q.store.versions "k" = [first, second] ∧ ¬ q.store.Antichains ∧
      (q.store.absorb "k" [second]).1.versions = [second] ∧
      (q.act again).2.store.versions "k" = [first, second] := by
  intro r first second both again q
  have hheld : q.store.versions "k" = [first, second] := by decide +kernel
  have hordered : ¬ Siblings.Antichain [first, second] := by decide +kernel
  exact ⟨rfl, hheld, fun h => hordered (hheld ▸ h "k"), by decide +kernel, by decide +kernel⟩

end Replica

end QuorumStore
