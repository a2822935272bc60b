/-
How long a replica waits for its peers.

* `Conduct.now_carry`: a call takes as long as it takes, or as long as its caller waits;
* `Conduct.fst_carry_of_late`: a caller that waits in vain hears of a timeout;
* `Conduct.carry_of_quiet`: while nothing becomes due, the time at which a call is made does not
  matter;
* `Conducted.exists_walk`: the calls of a walk are made one after the other, and the walk goes on
  after those that fail.
-/
import Mathlib.Algebra.Order.BigOperators.Group.List
import Mathlib.Algebra.Order.Ring.Nat
import Mathlib.Tactic.Lemma
import Mathlib.Tactic.SplitIfs
import QuorumStore.Cluster.Patience

namespace QuorumStore

/-! ### Time -/

namespace Timeline

variable {α : Type} {t : Timeline} {patience : ℕ} {e : Endpoint}

lemma now_wait (t : Timeline) (ms : ℕ) : (t.wait ms).now = t.now + ms := by
  rw [wait]
  split_ifs with h
  · rw [h, Nat.add_zero]
  · rfl

/-- While nothing becomes due, a wait takes time and does nothing else. -/
lemma wait_of_quiet {ms : ℕ} (h : ∀ p ∈ t.agenda, t.now + ms ≤ p.1) :
    t.wait ms = { t with now := t.now + ms } := by
  have hwake : ∀ fuel, wakeAll (· < t.now + ms) fuel t = t := fun fuel => by
    cases fuel with
    | zero => rfl
    | succ fuel =>
      rw [wakeAll]
      split
      · rfl
      · rename_i due w rest hagenda
        have hlate : ¬ due < t.now + ms := Nat.not_lt.mpr (h (due, w) (by simp [hagenda]))
        simp only [hlate, decide_false, if_neg Bool.false_ne_true]
  rw [wait]
  split_ifs with hzero
  · rw [hzero, Nat.add_zero]
  · simp only [hwake]

/-- What a caller hears in the end. -/
def heard (patience : ℕ) (e : Endpoint) (coming : Option (ℕ × Except CallError α)) :
    Except CallError α :=
  match coming with
  | some (ms, answer) => if ms ≤ patience then answer else .error (.timeout e.text)
  | none => .error (.timeout e.text)

lemma await_of_le {ms : ℕ} {answer : Except CallError α} (h : ms ≤ patience) :
    t.await patience e (some (ms, answer)) = (answer, t.wait ms) := if_pos h

lemma await_of_lt {ms : ℕ} {answer : Except CallError α} (h : patience < ms) :
    t.await patience e (some (ms, answer)) = (.error (.timeout e.text), t.wait patience) :=
  if_neg h.not_ge

/-- How long a caller waits for what is to come. -/
lemma now_await (coming : Option (ℕ × Except CallError α)) :
    (t.await patience e coming).2.now =
      t.now + (coming.map fun p => min p.1 patience).getD patience := by
  cases coming with
  | none => exact now_wait t patience
  | some p =>
    obtain ⟨ms, answer⟩ := p
    rcases le_or_gt ms patience with h | h
    · simp [await_of_le h, now_wait, h]
    · simp [await_of_lt h, now_wait, h.le]

lemma fst_await (coming : Option (ℕ × Except CallError α)) :
    (t.await patience e coming).1 = heard patience e coming := by
  cases coming with
  | none => rfl
  | some p =>
    rw [await, heard]
    split_ifs <;> rfl

/-- While nothing becomes due, a caller waits and does nothing else. -/
lemma await_of_quiet {coming : Option (ℕ × Except CallError α)}
    (h : ∀ p ∈ t.agenda, (t.await patience e coming).2.now ≤ p.1) :
    t.await patience e coming =
      (heard patience e coming, { t with now := (t.await patience e coming).2.now }) := by
  have hwait : ∃ ms, (t.await patience e coming).2 = t.wait ms := by
    cases coming with
    | none => exact ⟨patience, rfl⟩
    | some p =>
      rw [await]
      split_ifs
      · exact ⟨p.1, rfl⟩
      · exact ⟨patience, rfl⟩
  obtain ⟨ms, hms⟩ := hwait
  rw [hms, now_wait] at h
  refine Prod.ext (fst_await coming) ?_
  rw [hms, now_wait, wait_of_quiet h]

end Timeline

/-! ### Calls -/

namespace Conduct

variable {α : Type} {patience : ℕ} {e : Endpoint} {t : Timeline}
variable {serve : Replica → Except Refusal α × Replica}

lemma time_le (patience : ℕ) (c : Conduct) : c.time patience ≤ patience := by
  rw [time]
  split
  · exact min_le_right _ _
  · exact le_rfl

/-- A call over a link goes as its course says. -/
lemma carry_conduct (l : Link) :
    l.conduct.carry patience e serve t = t.carry (l.course patience e) e serve := by
  cases l with
  | prompt => rfl
  | stalled => rfl
  | delayed ms =>
    simp only [Link.conduct, Link.course, carry]
    split_ifs with h
    · exact Timeline.await_of_le (Nat.zero_le _)
    · rfl
  | late ms =>
    have hserved : (Link.late ms).conduct.carry patience e serve t =
        (t.deliver e serve).2.await patience e (some (ms, (t.deliver e serve).1)) := rfl
    rw [hserved]
    rcases le_or_gt ms patience with h | h
    · simp [Timeline.await_of_le h, Link.course, Timeline.carry, h]
    · simp [Timeline.await_of_lt h, Link.course, Timeline.carry, h.le, h.not_ge]
  | failing error => rfl

lemma carry_served_of_le {arrival : ℕ} {echo : Echo} (h : arrival ≤ patience) :
    (served arrival echo).carry patience e serve t =
      ((t.wait arrival).deliver e serve).2.await (patience - arrival) e
        (echo.brings ((t.wait arrival).deliver e serve).1) := if_pos h

lemma carry_served_of_lt {arrival : ℕ} {echo : Echo} (h : patience < arrival) :
    (served arrival echo).carry patience e serve t = t.await patience e none := if_neg h.not_ge

/-- **How long a call takes.** -/
theorem now_carry (c : Conduct) :
    (c.carry patience e serve t).2.now = t.now + c.time patience := by
  cases c with
  | served arrival echo =>
    rw [carry]
    split_ifs with h
    · have hdeliver : ((t.wait arrival).deliver e serve).2.now = t.now + arrival :=
        Timeline.now_wait t arrival
      simp only [Timeline.now_await, hdeliver]
      cases echo <;> simp only [Echo.brings, time, delay?, Option.map, Option.getD] <;> omega
    · rw [Timeline.now_await]
      cases echo <;> simp only [time, delay?, Option.map, Option.getD] <;> omega
  | failed ms error => exact Timeline.now_await _
  | stalled => exact Timeline.now_await _

/-- What a caller hears of a call in the end, if `answer` is what its peer answers. -/
def hears (patience : ℕ) (e : Endpoint) (answer : Except CallError α) :
    Conduct → Except CallError α
  | served arrival echo =>
    if arrival ≤ patience then Timeline.heard (patience - arrival) e (echo.brings answer)
    else .error (.timeout e.text)
  | failed ms error => Timeline.heard patience e (some (ms, .error error))
  | stalled => .error (.timeout e.text)

/-- A caller gives up a call that comes too late. -/
lemma hears_of_late {c : Conduct} (h : c.late patience = true) (answer : Except CallError α) :
    c.hears patience e answer = .error (.timeout e.text) := by
  cases c with
  | served arrival echo =>
    rw [hears]
    split_ifs with harrival
    · cases echo with
      | silence => rfl
      | _ =>
        simp only [late, delay?, decide_eq_true_eq] at h
        exact if_neg (by omega)
    · rfl
  | failed ms error => exact if_neg (by simpa [late, delay?] using h)
  | stalled => rfl

/-- A caller that gives up hears of a timeout. -/
lemma fst_carry_of_late {c : Conduct} (h : c.late patience = true) :
    (c.carry patience e serve t).1 = .error (.timeout e.text) := by
  have hcarry : ∃ arrived : Timeline, (c.carry patience e serve t).1 =
      c.hears patience e (arrived.cluster.deliver e serve).1 := by
    cases c with
    | served arrival echo =>
      refine ⟨t.wait arrival, ?_⟩
      rw [carry, hears]
      split_ifs with harrival
      · exact Timeline.fst_await _
      · rfl
    | failed ms error => exact ⟨t, Timeline.fst_await _⟩
    | stalled => exact ⟨t, rfl⟩
  obtain ⟨arrived, hanswer⟩ := hcarry
  rw [hanswer, hears_of_late h]

/-- While nothing becomes due, the time at which a call is made does not matter. -/
theorem carry_of_quiet {c : Conduct} (h : ∀ p ∈ t.agenda, t.now + c.time patience ≤ p.1) :
    c.carry patience e serve t =
      (c.hears patience e (t.cluster.deliver e serve).1,
        { t with
          cluster := if c.reaches patience then (t.cluster.deliver e serve).2 else t.cluster
          now := t.now + c.time patience }) := by
  have hnow : (c.carry patience e serve t).2.now = t.now + c.time patience := now_carry c
  rw [← hnow] at h ⊢
  cases c with
  | served arrival echo =>
    rcases le_or_gt arrival patience with harrival | harrival
    · rw [carry_served_of_le harrival] at h ⊢
      have harrive : t.wait arrival = { t with now := t.now + arrival } := by
        refine Timeline.wait_of_quiet fun p hp => le_trans ?_ (h p hp)
        rw [Timeline.now_await]
        exact (Timeline.now_wait t arrival).ge.trans (Nat.le_add_right _ _)
      rw [harrive] at h ⊢
      have hreaches : (served arrival echo).reaches patience = true := decide_eq_true harrival
      rw [Timeline.await_of_quiet h, hears, if_pos harrival, if_pos hreaches]
      rfl
    · rw [carry_served_of_lt harrival] at h ⊢
      have hreaches : ¬ (served arrival echo).reaches patience = true := by
        simpa [reaches] using harrival
      rw [Timeline.await_of_quiet h, hears, if_neg harrival.not_ge, if_neg hreaches]
      rfl
  | failed ms error => exact Timeline.await_of_quiet h
  | stalled => exact Timeline.await_of_quiet h

end Conduct

/-! ### Walks -/

namespace Conducted

variable {α β : Type} {i : ℕ} {r : Replica} {method : Method} {patience : ℕ} {e : Endpoint}
variable {serve : Replica → Except Refusal α × Replica} {s s' u : Conducted}
variable {peers : List Endpoint} {made : List Attempt} {failure : Option CallError}

/-- What one call comes to. -/
structure Called (patience : ℕ) (e : Endpoint) (failure : Option CallError) (s s' : Conducted) :
    Prop where
  attempts : s'.attempts = s.attempts ++ [⟨e, s.next e, failure⟩]
  conducts : s'.conducts = s.conducts.tail
  now : s'.time.now = s.time.now + (s.next e).time patience
  late : (s.next e).late patience = true → failure = some (.timeout e.text)

/-- What some calls one after the other come to; `peers` are those that could be called. -/
structure Made (patience : ℕ) (peers : List Endpoint) (made : List Attempt) (s s' : Conducted) :
    Prop where
  attempts : s'.attempts = s.attempts ++ made
  now : s'.time.now = s.time.now + (made.map fun a => a.conduct.time patience).sum
  peers : made.map Attempt.peer <+: peers
  conducts : s.conducts.take made.length <+: made.map Attempt.conduct
  late : ∀ a ∈ made, a.conduct.late patience = true → a.failure = some (.timeout a.peer.text)

lemma Made.nil : Made patience peers [] s s where
  attempts := (List.append_nil _).symm
  now := rfl
  peers := List.nil_prefix
  conducts := List.nil_prefix
  late := nofun

lemma Called.cons (hcall : Called patience e failure s u) (hmade : Made patience peers made u s') :
    Made patience (e :: peers) (⟨e, s.next e, failure⟩ :: made) s s' where
  attempts := by rw [hmade.attempts, hcall.attempts, List.append_assoc, List.singleton_append]
  now := by rw [hmade.now, hcall.now, List.map_cons, List.sum_cons, Nat.add_assoc]
  peers := List.cons_prefix_cons.mpr ⟨rfl, hmade.peers⟩
  conducts := by
    have hrest := hmade.conducts
    rw [hcall.conducts] at hrest
    cases hconducts : s.conducts with
    | nil => exact List.nil_prefix
    | cons c rest =>
      rw [hconducts] at hrest
      exact List.cons_prefix_cons.mpr ⟨by rw [next, hconducts]; rfl, hrest⟩
  late := List.forall_mem_cons.mpr ⟨hcall.late, hmade.late⟩

lemma called_counted (i : ℕ) (r : Replica) (method : Method)
    (serve : Replica → Except Refusal α × Replica) (e : Endpoint) (s : Conducted) :
    let call := Coordination.counted (surroundings i r) method
      (fun e => exchange r.timeout e serve) e s
    Called r.timeout e (Timeline.error? call.1) s call.2 := by
  have hnow : ((s.next e).carry r.timeout e serve s.time).2.now =
      s.time.now + (s.next e).time r.timeout := Conduct.now_carry _
  have hlate : (s.next e).late r.timeout = true →
      ((s.next e).carry r.timeout e serve s.time).1 = .error (.timeout e.text) :=
    Conduct.fst_carry_of_late
  simp only [Coordination.counted, exchange]
  generalize (s.next e).carry r.timeout e serve s.time = call at hnow hlate
  obtain ⟨answer, time⟩ := call
  cases answer with
  | ok a => exact ⟨rfl, rfl, hnow, fun h => nomatch hlate h⟩
  | error cause => exact ⟨rfl, rfl, hnow, fun h => congrArg Timeline.error? (hlate h)⟩

/-- **A walk.**  Peers are called in order until enough calls have succeeded. -/
theorem exists_walk (i : ℕ) (r : Replica) (method : Method)
    (serve : Replica → Except Refusal α × Replica) (enough : β → Bool) (add : β → α → β)
    (count : β → ℕ) (hadd : ∀ b a, count (add b a) = count b + 1) (peers : List Endpoint) (b : β)
    (s : Conducted) :
    let run := Coordination.walk (Coordination.counted (surroundings i r) method
      fun e => exchange r.timeout e serve) enough add peers b s
    ∃ made, Made r.timeout peers made s run.2 ∧
      count run.1 = count b + made.countP Attempt.succeeded ∧
      (¬ enough run.1 = true → made.map Attempt.peer = peers) := by
  induction peers generalizing b s with
  | nil => exact ⟨[], Made.nil, rfl, fun _ => rfl⟩
  | cons e rest ih =>
    have hcalled := called_counted i r method serve e s
    rw [Coordination.walk]
    by_cases henough : enough b = true
    · rw [if_pos henough]
      exact ⟨[], Made.nil, rfl, fun h => absurd henough h⟩
    · rw [if_neg henough]
      generalize Coordination.counted (surroundings i r) method
        (fun e => exchange r.timeout e serve) e s = call at hcalled
      obtain ⟨answer, u⟩ := call
      cases answer with
      | ok a =>
        obtain ⟨made, hmade, hcount, hall⟩ := ih (add b a) u
        refine ⟨_, hcalled.cons hmade, ?_, fun h => congrArg (e :: ·) (hall h)⟩
        rw [List.countP_cons_of_pos rfl]
        rw [hadd] at hcount
        exact hcount.trans (by omega)
      | error cause =>
        obtain ⟨made, hmade, hcount, hall⟩ := ih b u
        refine ⟨_, hcalled.cons hmade, ?_, fun h => congrArg (e :: ·) (hall h)⟩
        rw [List.countP_cons_of_neg Bool.false_ne_true]
        exact hcount

end Conducted

end QuorumStore
