/-
What comes of asking a replica for something again.  It does not forget what it was
given, so the same versions bring it nothing later, and a write in the same context is
stale.

* `Replica.act_replicate_of_knows`, `Replica.act_absorb_of_knows`,
  `Replica.act_put_of_knows`: what a replica knows of leaves it as it is;
* `Replica.countP_log_of_knows`: it accepts no write in a context if it knows of the
  clock that this would be signed with;
* `Replica.act_repeated`: so it may be asked for anything again at any later time, and of
  the writes of a key in one context it accepts at most one.
-/
import QuorumStore.Proofs.Knowledge

namespace QuorumStore

namespace Replica

variable {r : Replica} {key : String} {context : Clock} {value : Bytes} {versions : Siblings}
variable {pushed : Store} {answers : List Answer} {c : Clock}

/-! ### What is known -/

/-- Versions that a replica knows of are merged without any change. -/
lemma act_replicate_of_knows (hup : r.outage.down = false)
    (h : ∀ w ∈ versions, r.store.Knows key w.clock) :
    r.act (.request (.replicate key versions) answers) = (some (.ok (.replicate false)), r) := by
  obtain ⟨hfresh, hstore⟩ := Store.absorb_of_knows h
  simp only [act, Coordination.perform, Answered.self_surroundings, replicate_eq, hup]
  simp [hstore, Merge.changed, hfresh, Answered.surroundings, Except.map]

/-- A store that a replica knows of is merged without any change, and nothing of it is
counted. -/
lemma act_absorb_of_knows (hup : r.outage.down = false)
    (h : ∀ p ∈ pushed.entries, ∀ w ∈ p.2, r.store.Knows p.1 w.clock) :
    r.act (.request (.absorb pushed) answers) = (some (.ok .absorb), r) := by
  have habsorbed := Store.absorbEach_of_knows h
  simp only [act, Coordination.perform, Answered.self_surroundings, absorb_eq, hup]
  simp [habsorbed, Answered.surroundings, Except.map]

/-- A write whose clock a replica knows of is refused, and no peer is asked. -/
lemma act_put_of_knows (hup : r.outage.down = false)
    (h : r.store.Knows key (context.increment r.id)) :
    r.act (.request (.put key context value) answers) = (some (.error .stale), r) := by
  have hold : ∀ w ∈ [(⟨context.increment r.id, value⟩ : Version)], r.store.Knows key w.clock := by
    simpa using h
  obtain ⟨hfresh, -⟩ := Store.absorb_of_knows hold
  simp only [act, Coordination.perform, Coordination.put, Answered.self_surroundings, write_eq,
    hup]
  simp [Merge.changed, hfresh, Except.map]

/-! ### What stays known -/

lemma knows_act (h : r.store.Knows key c) (event : Event) : (r.act event).2.store.Knows key c := by
  cases event with
  | recovery => exact h
  | request request answers =>
    rw [store_act_request]
    split
    · exact h
    · exact Store.knows_absorbEach h

lemma id_run (r : Replica) (events : List Event) : (r.run events).id = r.id := by
  induction events generalizing r with
  | nil => rfl
  | cons event rest ih => exact (ih (r.act event).2).trans (r.id_act event)

lemma knows_run (h : r.store.Knows key c) (events : List Event) :
    (r.run events).store.Knows key c := by
  induction events generalizing r with
  | nil => exact h
  | cons event rest ih => exact ih (knows_act h event)

/-- A replica in service knows of what a request gives it, whether or not it was new. -/
lemma knows_act_of_given (hup : r.outage.down = false) {request : Request}
    {p : String × Siblings} (hp : p ∈ request.given r.id) {w : Version} (hw : w ∈ p.2) :
    (r.act (.request request answers)).2.store.Knows p.1 w.clock := by
  rw [store_act_request, if_neg (by simp [hup])]
  exact Store.knows_absorbEach_iff.mpr (.inr ⟨p, hp, rfl, Siblings.covers_of_mem hw⟩)

/-! ### Repetition -/

/-- Some events with what came of them. -/
def log (r : Replica) : List Event → List (Event × Option (Except Refusal Coordination.Outcome))
  | [] => []
  | event :: rest => (event, (r.act event).1) :: (r.act event).2.log rest

/-- Whether an event was a write of a key in a context that was accepted. -/
def acceptedWrite (key : String) (context : Clock) :
    Event × Option (Except Refusal Coordination.Outcome) → Bool
  | (.request (.put k c _) _, some (.ok _)) => k = key ∧ c = context
  | _ => false

/-- A write is accepted by a replica in service. -/
lemma exists_of_acceptedWrite {event : Event}
    (h : acceptedWrite key context (event, (r.act event).1) = true) :
    ∃ value answers, r.outage.down = false ∧ event = .request (.put key context value) answers := by
  unfold acceptedWrite at h
  split at h
  · rename_i k c value answers outcome heq
    obtain ⟨rfl, houtcome⟩ := Prod.mk.inj heq
    obtain ⟨rfl, rfl⟩ : k = key ∧ c = context := by simpa using h
    have hserved : (r.act (.request (.put k c value) answers)).1 ≠ some (.error .crashed) := by
      rw [houtcome]
      exact nofun
    exact ⟨value, answers, down_eq_false_of_act_ne hserved nofun, rfl⟩
  · cases h

/-- What is known of is not accepted. -/
lemma acceptedWrite_of_knows (h : r.store.Knows key (context.increment r.id)) (event : Event) :
    acceptedWrite key context (event, (r.act event).1) = false := by
  by_contra haccepted
  rw [Bool.not_eq_false] at haccepted
  obtain ⟨value, answers, hup, rfl⟩ := exists_of_acceptedWrite haccepted
  rw [act_put_of_knows hup h] at haccepted
  cases haccepted

/-- No write is accepted in a context if the clock that it would be signed with is known. -/
lemma countP_log_of_knows (h : r.store.Knows key (context.increment r.id)) (events : List Event) :
    (r.log events).countP (acceptedWrite key context) = 0 := by
  induction events generalizing r with
  | nil => rfl
  | cons event rest ih =>
    have hlater : (r.act event).2.store.Knows key (context.increment (r.act event).2.id) := by
      rw [id_act]
      exact knows_act h event
    rw [log, List.countP_cons, acceptedWrite_of_knows h event, ih hlater]
    rfl

/-- Of the writes of a key in one context at most one is accepted. -/
lemma countP_log_le_one (r : Replica) (events : List Event) :
    (r.log events).countP (acceptedWrite key context) ≤ 1 := by
  induction events generalizing r with
  | nil => exact Nat.zero_le 1
  | cons event rest ih =>
    rw [log, List.countP_cons]
    by_cases haccepted : acceptedWrite key context (event, (r.act event).1) = true
    · -- the replica knows of the write from then on
      obtain ⟨value, answers, hup, rfl⟩ := exists_of_acceptedWrite haccepted
      have hgiven : (key, [⟨context.increment r.id, value⟩]) ∈
          Request.given r.id (.put key context value) := List.mem_singleton_self _
      have hknows : (r.act (.request (.put key context value) answers)).2.store.Knows key
          (context.increment r.id) := knows_act_of_given hup hgiven (List.mem_singleton_self _)
      rw [countP_log_of_knows (by rwa [id_act]), if_pos haccepted]
    · rw [if_neg haccepted]
      exact ih _

/-- **Repetition.**  Let anything happen to a replica after it was given something, and let
it be in service then.

* Versions or a store that it merged before it may be sent again: it takes nothing from
  them, and all about it stays as it is.
* A write of a key in a context that it accepted before, or refused as stale, it refuses
  as stale with any value, and all about it stays as it is.

So of the writes of a key in one context a replica accepts at most one in any run. -/
theorem act_repeated (r : Replica) (later : List Event) :
    (∀ key versions answers outcome,
      let message : Request := .replicate key versions
      let r' := (r.act (.request message answers)).2.run later
      (r.act (.request message answers)).1 = some (.ok outcome) → r'.outage.down = false →
        ∀ answers', r'.act (.request message answers') = (some (.ok (.replicate false)), r')) ∧
    (∀ pushed answers outcome,
      let message : Request := .absorb pushed
      let r' := (r.act (.request message answers)).2.run later
      (r.act (.request message answers)).1 = some (.ok outcome) → r'.outage.down = false →
        ∀ answers', r'.act (.request message answers') = (some (.ok .absorb), r')) ∧
    (∀ key context value answers,
      let served := r.act (.request (.put key context value) answers)
      let r' := served.2.run later
      (∃ receipt, served.1 = some (.ok (.put receipt))) ∨ served.1 = some (.error .stale) →
        r'.outage.down = false → ∀ value' answers',
          r'.act (.request (.put key context value') answers') = (some (.error .stale), r')) ∧
    ∀ key context, (r.log later).countP (acceptedWrite key context) ≤ 1 := by
  refine ⟨?_, ?_, ?_, fun key context => r.countP_log_le_one later⟩
  · intro key versions answers outcome message r' hok hup answers'
    have hgiven : (key, versions) ∈ message.given r.id := List.mem_singleton_self _
    have hbefore := down_eq_false_of_act_eq_ok hok hgiven
    exact act_replicate_of_knows hup fun w hw =>
      knows_run (knows_act_of_given hbefore hgiven hw) later
  · intro pushed answers outcome message r' hok hup answers'
    refine act_absorb_of_knows hup fun p hp w hw => ?_
    have hgiven : p ∈ message.given r.id := hp
    have hbefore := down_eq_false_of_act_eq_ok hok hgiven
    exact knows_run (knows_act_of_given hbefore hgiven hw) later
  · intro key context value answers served r' hserved hup value' answers'
    have hne : served.1 ≠ some (.error .crashed) := by
      rcases hserved with ⟨receipt, hok⟩ | hstale
      · rw [hok]
        exact nofun
      · rw [hstale]
        exact nofun
    have hbefore : r.outage.down = false := down_eq_false_of_act_ne hne nofun
    have hgiven : (key, [⟨context.increment r.id, value⟩]) ∈
        Request.given r.id (.put key context value) := List.mem_singleton_self _
    have hknows : served.2.store.Knows key (context.increment r.id) :=
      knows_act_of_given hbefore hgiven (List.mem_singleton_self _)
    have hid : r'.id = r.id := (id_run _ later).trans (id_act r _)
    refine act_put_of_knows hup ?_
    rw [hid]
    exact knows_run hknows later

/-- A replica is sent two versions of which one is before the other, one by one or in a
store, or a client writes.  Another write supersedes the versions, and the replica goes out
of service for a while.  What is asked of it again then changes nothing. -/
theorem act_repeated_ordered :
    let r := Replica.new ⟨"localhost", 8000⟩ "n1" ⟨1, 1⟩ 500
    let first : Version := ⟨.ofPairs [("n2", 1)], [1]⟩
    let second : Version := ⟨.ofPairs [("n2", 2)], [2]⟩
    let merge : Request := .replicate "k" [first, second]
    let push : Request := .absorb (KeyMap.ofList [("k", [first, second]), ("l", [first])])
    let write : Bytes → Request := .put "k" first.clock
    let later : List Event := [.request (.put "k" second.clock [3]) [], .request (.crash 5) [],
      .recovery]
    let merged := (r.act (.request merge [])).2.run later
    let pushed := (r.act (.request push [])).2.run later
    let written := (r.act (.request (write [4]) [])).2.run later
    ((r.act (.request merge [])).1 = some (.ok (.replicate true)) ∧ merged.outage.down = false ∧
      merged.act (.request merge []) = (some (.ok (.replicate false)), merged)) ∧
    ((r.act (.request push [])).1 = some (.ok .absorb) ∧ pushed.outage.down = false ∧
      pushed.act (.request push []) = (some (.ok .absorb), pushed)) ∧
    (r.act (.request (write [4]) [])).1 = some (.ok (.put ⟨1, 1⟩)) ∧ written.outage.down = false ∧
      written.act (.request (write [5]) []) = (some (.error .stale), written) := by
  intro r first second merge push write later merged pushed written
  have hmerged : (r.act (.request merge [])).1 = some (.ok (.replicate true)) := rfl
  have hpushed : (r.act (.request push [])).1 = some (.ok .absorb) := rfl
  have hwritten : (r.act (.request (write [4]) [])).1 = some (.ok (.put ⟨1, 1⟩)) := rfl
  obtain ⟨hmerge, hpush, hwrite, -⟩ := act_repeated r later
  refine ⟨⟨hmerged, by decide +kernel, ?_⟩, ⟨hpushed, by decide +kernel, ?_⟩, hwritten,
    by decide +kernel, ?_⟩
  · exact hmerge "k" [first, second] [] _ hmerged (by decide +kernel) []
  · exact hpush _ [] _ hpushed (by decide +kernel) []
  · exact hwrite "k" first.clock [4] [] (.inl ⟨_, hwritten⟩) (by decide +kernel) [5] []

end Replica

end QuorumStore
