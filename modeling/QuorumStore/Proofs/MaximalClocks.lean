/-
Antichains of versions as the maximal clocks that they cover.  What a set of
versions covers does not depend on the order in which it was merged together, and
an antichain is determined by what it covers.

* `Siblings.Antichain.mem_clocks_iff`: the clocks of an antichain are the maximal
  clocks that it covers;
* `Siblings.Antichain.matches_of_covers`: antichains that cover the same clocks have
  the same clocks, and the same versions if equal clocks carry equal values;
* `Siblings.matches_merge_comm`, `Siblings.matches_merge_assoc`, `Siblings.merge_self`:
  so on antichains merging is commutative, associative and idempotent;
* `Siblings.merge_of_antichains`: what a merge of two antichains is, and what it counts;
* `Store.versions_absorbEach_of_mem_iff`: what a store holds depends on which version
  sets it was given, not on their order or on how often they came.
-/
import Mathlib.Order.Minimal
import QuorumStore.Proofs.Merging

namespace QuorumStore

/-- The maximal elements below some elements are the maximal ones of these. -/
lemma maximal_exists_le_iff {α : Type} [PartialOrder α] {P : α → Prop} {a : α} :
    Maximal (fun x => ∃ y, P y ∧ x ≤ y) a ↔ Maximal P a := by
  constructor
  · rintro ⟨⟨b, hb, hab⟩, hmax⟩
    have hba : b ≤ a := hmax ⟨b, hb, le_rfl⟩ hab
    rw [le_antisymm hab hba]
    exact ⟨hb, fun y hy hby => (hmax ⟨y, hy, le_rfl⟩ (hab.trans hby)).trans hab⟩
  · rintro ⟨ha, hmax⟩
    refine ⟨⟨a, ha, le_rfl⟩, ?_⟩
    rintro x ⟨y, hy, hxy⟩ hax
    exact hxy.trans (hmax hy (hax.trans hxy))

namespace Siblings

variable {s t a b c : Siblings} {v w : Version}

lemma covers_iff_exists_clock {s : Siblings} {clock : Clock} :
    s.Covers clock ↔ ∃ d, d ∈ s.clocks ∧ clock ≤ d := by
  simp [Covers, clocks]

/-! ### Antichains -/

/-- The clocks of an antichain are the maximal clocks that it covers. -/
theorem Antichain.mem_clocks_iff (h : s.Antichain) {clock : Clock} :
    clock ∈ s.clocks ↔ Maximal s.Covers clock := by
  constructor
  · intro hclock
    obtain ⟨v, hv, rfl⟩ := List.mem_map.mp hclock
    refine ⟨covers_of_mem hv, ?_⟩
    rintro d ⟨w, hw, hdw⟩ hvd
    rw [h.eq_of_le hv hw (hvd.trans hdw)]
    exact hdw
  · rintro ⟨⟨v, hv, hle⟩, hmax⟩
    have hge : v.clock ≤ clock := hmax (covers_of_mem hv) hle
    exact List.mem_map.mpr ⟨v, hv, le_antisymm hge hle⟩

/-- An antichain that covers what some clocks cover has the maximal ones of these. -/
lemma Antichain.mem_clocks_iff_of_covers (h : s.Antichain) {P : Clock → Prop}
    (hcovers : ∀ clock, s.Covers clock ↔ ∃ d, P d ∧ clock ≤ d) {clock : Clock} :
    clock ∈ s.clocks ↔ Maximal P clock := by
  rw [h.mem_clocks_iff, show s.Covers = fun clock => ∃ d, P d ∧ clock ≤ d from
    funext fun clock => propext (hcovers clock), maximal_exists_le_iff]

/-- Of two antichains that cover the same clocks the one contains the versions of the
other, if equal clocks carry equal values. -/
lemma Antichain.subset_of_covers (hs : s.Antichain) (ht : t.Antichain)
    (hvalues : Set.InjOn Version.clock {v | v ∈ s ∨ v ∈ t})
    (hcovers : ∀ clock, s.Covers clock ↔ t.Covers clock) : s ⊆ t := by
  intro v hv
  have hclock : v.clock ∈ t.clocks := by
    rw [ht.mem_clocks_iff, ← funext fun clock => propext (hcovers clock), ← hs.mem_clocks_iff]
    exact List.mem_map.mpr ⟨v, hv, rfl⟩
  obtain ⟨w, hw, heq⟩ := List.mem_map.mp hclock
  exact hvalues (.inr hw) (.inl hv) heq ▸ hw

/-- Two sets of versions have the same clocks, and the same versions as well if equal
clocks carry equal values. -/
structure Matches (s t : Siblings) : Prop where
  clocks : s.clocks.Perm t.clocks
  versions : Set.InjOn Version.clock {v | v ∈ s ∨ v ∈ t} → s.Perm t

/-- Antichains that cover the same clocks match. -/
theorem Antichain.matches_of_covers (hs : s.Antichain) (ht : t.Antichain)
    (hcovers : ∀ clock, s.Covers clock ↔ t.Covers clock) : s.Matches t where
  clocks := by
    refine (List.perm_ext_iff_of_nodup hs.nodup_clocks ht.nodup_clocks).mpr fun clock => ?_
    rw [hs.mem_clocks_iff, ht.mem_clocks_iff, funext fun clock => propext (hcovers clock)]
  versions hvalues := by
    refine (List.perm_ext_iff_of_nodup hs.nodup_clocks.of_map ht.nodup_clocks.of_map).mpr
      fun v => ⟨fun hv => ?_, fun hv => ?_⟩
    · exact hs.subset_of_covers ht hvalues hcovers hv
    · exact ht.subset_of_covers hs (hvalues.mono fun _ => Or.symm)
        (fun clock => (hcovers clock).symm) hv

/-! ### Merging as an operation on antichains -/

lemma matches_merge_comm (ha : a.Antichain) (hb : b.Antichain) :
    (a.merge b).versions.Matches (b.merge a).versions := by
  refine (antichain_merge ha hb).matches_of_covers (antichain_merge hb ha) fun clock => ?_
  rw [covers_merge, covers_merge]
  exact or_comm

lemma matches_merge_assoc (ha : a.Antichain) (hb : b.Antichain) (hc : c.Antichain) :
    ((a.merge b).versions.merge c).versions.Matches (a.merge (b.merge c).versions).versions := by
  refine (antichain_merge (antichain_merge ha hb) hc).matches_of_covers
    (antichain_merge ha (antichain_merge hb hc)) fun clock => ?_
  simp only [covers_merge, or_assoc]

/-- An antichain that is merged with itself stays as it is, in the same order. -/
lemma merge_self (ha : a.Antichain) : a.merge a = ⟨a, 0⟩ := by
  have hunchanged : ¬ (a.merge a).changed = true := fun h => by
    obtain ⟨v, hv, hnew⟩ := changed_merge_iff.mp h
    exact hnew (covers_of_mem hv)
  have hversions : (a.merge a).versions = a := merge_of_not_changed ha hunchanged
  have hfresh : (a.merge a).fresh = 0 := by
    simpa [Merge.changed] using hunchanged
  exact congrArg₂ Merge.mk hversions hfresh

/-- The merge of two antichains has the maximal clocks of both. -/
lemma mem_clocks_merge_iff (ha : a.Antichain) (hb : b.Antichain) {clock : Clock} :
    clock ∈ (a.merge b).versions.clocks ↔
      Maximal (fun c => c ∈ a.clocks ∨ c ∈ b.clocks) clock := by
  refine (antichain_merge ha hb).mem_clocks_iff_of_covers fun clock => ?_
  rw [covers_merge, covers_iff_exists_clock, covers_iff_exists_clock]
  simp only [or_and_right, exists_or]

/-- Of the versions with one clock in two antichains a merge keeps the held one. -/
lemma mem_merge_of_clock_eq (ha : a.Antichain) (hb : b.Antichain) (hv : v ∈ a) (hw : w ∈ b)
    (heq : v.clock = w.clock) :
    v ∈ (a.merge b).versions ∧ ∀ u ∈ (a.merge b).versions, u.clock = v.clock → u = v := by
  have hkept : v ∈ (a.merge b).versions := mem_merge.mpr (.inl ⟨hv, fun u hu hlt => by
    rw [heq] at hlt
    rw [hb.eq_of_le hw hu hlt.le] at hlt
    exact lt_irrefl _ hlt⟩)
  exact ⟨hkept, fun u hu hclock => (antichain_merge ha hb).eq_of_le hu hkept hclock.le⟩

/-- What is new in a merge are the incoming versions that the held ones do not cover. -/
lemma fresh_merge (held incoming : Siblings) : (held.merge incoming).fresh =
    incoming.countP fun w => decide (∀ v ∈ held, ¬ w.clock ≤ v.clock) := by
  rw [List.countP_eq_length_filter]
  refine congrArg List.length (List.filter_congr fun w _ => ?_)
  rw [Bool.eq_iff_iff, isFresh_iff, decide_eq_true_iff]
  simp only [Covers, not_exists, not_and]

/-- A merge into an antichain leaves it as it is just when nothing is new. -/
lemma fresh_merge_eq_zero_iff (ha : a.Antichain) :
    (a.merge b).fresh = 0 ↔ (a.merge b).versions = a := by
  constructor
  · intro hzero
    exact merge_of_not_changed ha (by simp [Merge.changed, hzero])
  · intro hsame
    have hnone : ∀ w ∈ b, a.isFresh w ≠ true := fun w hw hfresh => by
      have hw : w ∈ (a.merge b).versions := mem_merge.mpr (.inr ⟨hw, isFresh_iff.mp hfresh⟩)
      exact isFresh_iff.mp hfresh (covers_of_mem (hsame ▸ hw))
    exact List.length_eq_zero_iff.mpr (List.filter_eq_nil_iff.mpr hnone)

/-- **Merges.**  The merge of two antichains is an antichain, and its clocks are the maximal
ones of both.  Where both have a clock, the held version stays.  Held versions come first and
incoming ones behind them, both in their order.  The incoming versions that are counted are
those that are neither equal to nor before a held one, and none is counted just when the held
versions stay as they are. -/
theorem merge_of_antichains (ha : a.Antichain) (hb : b.Antichain) :
    (a.merge b).versions.Antichain ∧
    (∀ clock, clock ∈ (a.merge b).versions.clocks ↔
      Maximal (fun c => c ∈ a.clocks ∨ c ∈ b.clocks) clock) ∧
    (∀ v ∈ a, ∀ w ∈ b, v.clock = w.clock →
      v ∈ (a.merge b).versions ∧ ∀ u ∈ (a.merge b).versions, u.clock = v.clock → u = v) ∧
    (∃ kept news, (a.merge b).versions = kept ++ news ∧ kept.Sublist a ∧ news.Sublist b ∧
      news.length = (a.merge b).fresh) ∧
    (a.merge b).fresh = b.countP (fun w => decide (∀ v ∈ a, ¬ w.clock ≤ v.clock)) ∧
    ((a.merge b).fresh = 0 ↔ (a.merge b).versions = a) :=
  ⟨antichain_merge ha hb, fun _ => mem_clocks_merge_iff ha hb,
    fun _ hv _ hw heq => mem_merge_of_clock_eq ha hb hv hw heq,
    ⟨_, _, merge_versions, List.filter_sublist, List.filter_sublist, rfl⟩,
    fresh_merge a b, fresh_merge_eq_zero_iff ha⟩

/-- A merge in which a held version is superseded, an incoming one is old, one clock is in
both, and one is in neither order. -/
theorem merge_of_antichains_overlapping :
    let a : Siblings := [⟨.ofPairs [("n1", 1)], [1]⟩, ⟨.ofPairs [("n2", 1)], [2]⟩,
      ⟨.ofPairs [("n3", 2)], [3]⟩]
    let b : Siblings := [⟨.ofPairs [("n4", 1)], [4]⟩, ⟨.ofPairs [("n3", 1)], [5]⟩,
      ⟨.ofPairs [("n1", 2)], [6]⟩, ⟨.ofPairs [("n2", 1)], [7]⟩]
    a.Antichain ∧ b.Antichain ∧
      (a.merge b).versions = [⟨.ofPairs [("n2", 1)], [2]⟩, ⟨.ofPairs [("n3", 2)], [3]⟩,
        ⟨.ofPairs [("n4", 1)], [4]⟩, ⟨.ofPairs [("n1", 2)], [6]⟩] ∧
      (a.merge b).fresh = 2 ∧ (a.merge b).versions ≠ a ∧
      Maximal (fun c => c ∈ a.clocks ∨ c ∈ b.clocks) (.ofPairs [("n4", 1)]) ∧
      ∀ u ∈ (a.merge b).versions, u.clock = .ofPairs [("n2", 1)] → u.value = [2] := by
  intro a b
  have ha : a.Antichain := by decide +kernel
  have hb : b.Antichain := by decide +kernel
  have hmerged : (a.merge b).versions = [⟨.ofPairs [("n2", 1)], [2]⟩,
      ⟨.ofPairs [("n3", 2)], [3]⟩, ⟨.ofPairs [("n4", 1)], [4]⟩,
      ⟨.ofPairs [("n1", 2)], [6]⟩] := by decide +kernel
  obtain ⟨-, hclocks, hties, -, hcount, hzero⟩ := merge_of_antichains ha hb
  have hfresh : (a.merge b).fresh = 2 := hcount.trans (by decide +kernel)
  refine ⟨ha, hb, hmerged, hfresh, fun hsame => ?_, (hclocks _).mp ?_, fun u hu hclock => ?_⟩
  · exact absurd (hfresh.symm.trans (hzero.mpr hsame)) (by decide)
  · rw [hmerged]
    exact List.mem_cons_of_mem _ (List.mem_cons_of_mem _ List.mem_cons_self)
  · have hheld : (⟨.ofPairs [("n2", 1)], [2]⟩ : Version) ∈ a :=
      List.mem_cons_of_mem _ List.mem_cons_self
    have hincoming : (⟨.ofPairs [("n2", 1)], [7]⟩ : Version) ∈ b := by simp [b]
    exact congrArg Version.value ((hties _ hheld _ hincoming rfl).2 u hu hclock)

end Siblings

namespace Store

variable {s : Store} {key : String} {messages sent sent' : List (String × Siblings)}

/-! ### Deliveries -/

/-- A version that some messages bring for a key. -/
def Brings (messages : List (String × Siblings)) (key : String) (v : Version) : Prop :=
  ∃ p ∈ messages, p.1 = key ∧ v ∈ p.2

/-- A store that holds only non-empty sets has the keys of which it knows a write. -/
lemma Holds.mem_keys_iff {Good : String → Siblings → Prop} (h : s.Holds Good) :
    key ∈ s.keys ↔ ∃ clock, s.Knows key clock := by
  rw [KeyMap.mem_keys_iff]
  constructor
  · rintro ⟨versions, hget⟩
    obtain ⟨v, hv⟩ := List.exists_mem_of_ne_nil versions (h key versions hget).1
    exact ⟨v.clock, v, versions_of_get? hget ▸ hv, le_rfl⟩
  · rintro ⟨clock, hknows⟩
    exact knows_of_get?_isSome hknows

/-- An empty store that is given some messages, in any order and as often as may be,
knows of what the messages bring. -/
lemma knows_of_mem_iff (hsent : ∀ p, p ∈ sent ↔ p ∈ messages) {clock : Clock} :
    (absorbEach KeyMap.empty sent).2.Knows key clock ↔
      ∃ d, (∃ v, Brings messages key v ∧ v.clock = d) ∧ clock ≤ d := by
  have hempty : ¬ Knows KeyMap.empty key clock := Siblings.not_covers_nil
  rw [knows_absorbEach_iff, or_iff_right hempty]
  constructor
  · rintro ⟨p, hp, hkey, v, hv, hle⟩
    exact ⟨v.clock, ⟨v, ⟨p, (hsent p).mp hp, hkey, hv⟩, rfl⟩, hle⟩
  · rintro ⟨-, ⟨v, ⟨p, hp, hkey, hv⟩, rfl⟩, hle⟩
    exact ⟨p, (hsent p).mpr hp, hkey, v, hv, hle⟩

/-- What an empty store holds after such deliveries, if the messages carry antichains. -/
lemma holds_of_mem_iff (hantichain : ∀ p ∈ messages, p.2.Antichain)
    (hsent : ∀ p, p ∈ sent ↔ p ∈ messages) :
    (absorbEach KeyMap.empty sent).2.Holds (fun _ => Siblings.Antichain) ∧
      (absorbEach KeyMap.empty sent).2.Holds fun key versions =>
        ∀ v ∈ versions, Brings messages key v := by
  constructor
  · exact holds_absorbEach Siblings.mergeStable_antichain (holds_empty _) fun p hp =>
      hantichain p ((hsent p).mp hp)
  · exact holds_absorbEach (Siblings.mergeStable_forall_mem (Brings messages)) (holds_empty _)
      fun p hp v hv => ⟨p, (hsent p).mp hp, rfl, hv⟩

/-- **Deliveries.**  Let some messages with antichains be delivered to two empty stores,
each of them at least once, in any order and with any repetitions.  Both stores have
the same keys then, and for each key the clocks that are maximal among those of all
delivered versions.  If equal clocks carry equal values, they hold the same versions up
to order.  So merging antichains is commutative, associative and idempotent. -/
theorem versions_absorbEach_of_mem_iff (hantichain : ∀ p ∈ messages, p.2.Antichain)
    (hsent : ∀ p, p ∈ sent ↔ p ∈ messages) (hsent' : ∀ p, p ∈ sent' ↔ p ∈ messages) :
    let s := (absorbEach KeyMap.empty sent).2
    let s' := (absorbEach KeyMap.empty sent').2
    (∀ key, key ∈ s.keys ↔ key ∈ s'.keys) ∧
    (∀ key clock,
      (clock ∈ (s.versions key).clocks ↔
        Maximal (fun d => ∃ v, Brings messages key v ∧ v.clock = d) clock) ∧
      (clock ∈ (s'.versions key).clocks ↔
        Maximal (fun d => ∃ v, Brings messages key v ∧ v.clock = d) clock)) ∧
    (∀ key, Set.InjOn Version.clock {v | Brings messages key v} →
      (s.versions key).Perm (s'.versions key)) ∧
    ∀ a b c : Siblings, a.Antichain → b.Antichain → c.Antichain →
      (a.merge b).versions.Matches (b.merge a).versions ∧
      ((a.merge b).versions.merge c).versions.Matches (a.merge (b.merge c).versions).versions ∧
      a.merge a = ⟨a, 0⟩ := by
  intro s s'
  obtain ⟨hs, hbrought⟩ := holds_of_mem_iff hantichain hsent
  obtain ⟨hs', hbrought'⟩ := holds_of_mem_iff hantichain hsent'
  have hset := hs.versions Siblings.mergeStable_antichain
  have hset' := hs'.versions Siblings.mergeStable_antichain
  have hknows : ∀ key clock, s.Knows key clock ↔ s'.Knows key clock := fun key clock =>
    (knows_of_mem_iff hsent).trans (knows_of_mem_iff hsent').symm
  refine ⟨fun key => ?_, fun key clock => ⟨?_, ?_⟩, fun key hvalues => ?_,
    fun a b c ha hb hc => ⟨?_, ?_, ?_⟩⟩
  · rw [hs.mem_keys_iff, hs'.mem_keys_iff]
    exact exists_congr (hknows key)
  · exact (hset key).mem_clocks_iff_of_covers fun _ => knows_of_mem_iff hsent
  · exact (hset' key).mem_clocks_iff_of_covers fun _ => knows_of_mem_iff hsent'
  · have stable := Siblings.mergeStable_forall_mem (Brings messages)
    refine ((hset key).matches_of_covers (hset' key) (hknows key)).versions (hvalues.mono ?_)
    rintro v (hv | hv)
    · exact hbrought.versions stable key v hv
    · exact hbrought'.versions stable key v hv
  · exact Siblings.matches_merge_comm ha hb
  · exact Siblings.matches_merge_assoc ha hb hc
  · exact Siblings.merge_self ha

/-- Three messages, delivered in two orders and with different repetitions.  The order of
the two concurrent versions that remain differs. -/
theorem versions_absorbEach_of_mem_iff_repeated :
    let first : String × Siblings := ("k", [⟨.ofPairs [("n1", 1)], [1]⟩])
    let second : String × Siblings :=
      ("k", [⟨.ofPairs [("n1", 2)], [2]⟩, ⟨.ofPairs [("n2", 1)], [3]⟩])
    let third : String × Siblings := ("k", [⟨.ofPairs [("n1", 1), ("n2", 1)], [4]⟩])
    let messages := [first, second, third]
    let s := (absorbEach KeyMap.empty [first, second, third, second]).2
    let s' := (absorbEach KeyMap.empty [third, first, third, second]).2
    (∀ p ∈ messages, p.2.Antichain) ∧
      (s.versions "k").clocks = [.ofPairs [("n1", 2)], .ofPairs [("n1", 1), ("n2", 1)]] ∧
      (s'.versions "k").clocks = [.ofPairs [("n1", 1), ("n2", 1)], .ofPairs [("n1", 2)]] ∧
      Maximal (fun d => ∃ v, Brings messages "k" v ∧ v.clock = d) (.ofPairs [("n1", 2)]) ∧
      (s.versions "k").Perm (s'.versions "k") := by
  intro first second third messages s s'
  have hantichain : ∀ p ∈ messages, p.2.Antichain := by decide +kernel
  have hsent : ∀ p, p ∈ [first, second, third, second] ↔ p ∈ messages := fun p => by
    simp only [messages, List.mem_cons]
    tauto
  have hsent' : ∀ p, p ∈ [third, first, third, second] ↔ p ∈ messages := fun p => by
    simp only [messages, List.mem_cons]
    tauto
  have hclocks : (s.versions "k").clocks
      = [.ofPairs [("n1", 2)], .ofPairs [("n1", 1), ("n2", 1)]] := by decide +kernel
  have hclocks' : (s'.versions "k").clocks
      = [.ofPairs [("n1", 1), ("n2", 1)], .ofPairs [("n1", 2)]] := by decide +kernel
  have hvalues : Set.InjOn Version.clock {v | Brings messages "k" v} := by
    have hall : ∀ p ∈ messages, ∀ q ∈ messages, ∀ v ∈ p.2, ∀ w ∈ q.2,
        v.clock = w.clock → v = w := by decide +kernel
    rintro v ⟨p, hp, -, hv⟩ w ⟨q, hq, -, hw⟩ heq
    exact hall p hp q hq v hv w hw heq
  obtain ⟨-, hmaximal, hperm, -⟩ := versions_absorbEach_of_mem_iff hantichain hsent hsent'
  refine ⟨hantichain, hclocks, hclocks', ?_, hperm "k" hvalues⟩
  exact (hmaximal "k" _).1.mp (hclocks ▸ List.mem_cons_self)

end Store

end QuorumStore
