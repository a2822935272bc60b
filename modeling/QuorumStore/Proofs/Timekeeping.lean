/-
Time in a cluster without periodic pushes.

* `Timeline.wakeAll_eq`: what becomes due are timers of outages, and they fire one after the
  other;
* `Timeline.Orderly.wait_eq`, `Timeline.Orderly.sleep_eq`: what a wait and a sleep do;
* `Timeline.Orderly.wait_wait`: to wait twice is to wait once for as long as both;
* `Timeline.orderly_run`: whatever happens to a cluster, its agenda stays in order.
-/
import QuorumStore.Cluster.Chronology
import QuorumStore.Proofs.Requests

namespace QuorumStore

/-! ### Lists that are worked off from the front -/

section While

variable {α : Type} {p q : α → Bool} {l : List α}

lemma takeWhile_append_of_imp (h : ∀ x, p x = true → q x = true) :
    l.takeWhile p ++ (l.dropWhile p).takeWhile q = l.takeWhile q := by
  induction l with
  | nil => rfl
  | cons x rest ih =>
    by_cases hx : p x = true
    · rw [List.takeWhile_cons_of_pos hx, List.dropWhile_cons_of_pos hx,
        List.takeWhile_cons_of_pos (h x hx), List.cons_append, ih]
    · rw [List.takeWhile_cons_of_neg hx, List.dropWhile_cons_of_neg hx, List.nil_append]

lemma dropWhile_dropWhile_of_imp (h : ∀ x, p x = true → q x = true) :
    (l.dropWhile p).dropWhile q = l.dropWhile q := by
  induction l with
  | nil => rfl
  | cons x rest ih =>
    by_cases hx : p x = true
    · rw [List.dropWhile_cons_of_pos hx, List.dropWhile_cons_of_pos (h x hx), ih]
    · rw [List.dropWhile_cons_of_neg hx]

/-- What is left of an ordered list does not come before its first member. -/
lemma le_of_mem_dropWhile {f : α → ℕ} {m : ℕ} (hsorted : l.Pairwise fun x y => f x ≤ f y)
    (h : ∀ x, ¬ p x = true → m ≤ f x) : ∀ x ∈ l.dropWhile p, m ≤ f x := by
  induction l with
  | nil => exact fun x hx => absurd hx List.not_mem_nil
  | cons y rest ih =>
    obtain ⟨hle, hrest⟩ := List.pairwise_cons.mp hsorted
    by_cases hy : p y = true
    · rw [List.dropWhile_cons_of_pos hy]
      exact ih hrest
    · rw [List.dropWhile_cons_of_neg hy]
      intro x hx
      rcases List.mem_cons.mp hx with rfl | hx
      · exact h x hy
      · exact (h y hy).trans (hle x hx)

end While

/-- An arrangement keeps an agenda in order. -/
lemma Agenda.pairwise_arrange {α : Type} {due : ℕ} {x : α} {a : Agenda α}
    (h : a.Pairwise fun p q => p.1 ≤ q.1) :
    (arrange due x a).Pairwise fun p q => p.1 ≤ q.1 := by
  induction a with
  | nil => exact List.pairwise_singleton _ _
  | cons p rest ih =>
    obtain ⟨hle, hrest⟩ := List.pairwise_cons.mp h
    rw [arrange]
    split
    · rename_i hlt
      refine List.pairwise_cons.mpr ⟨fun q hq => ?_, h⟩
      rcases List.mem_cons.mp hq with rfl | hq
      · exact hlt.le
      · exact hlt.le.trans (hle q hq)
    · rename_i hge
      refine List.pairwise_cons.mpr ⟨fun q hq => ?_, ih hrest⟩
      rcases mem_arrange.mp hq with rfl | hq
      · exact not_lt.mp hge
      · exact hle q hq

/-! ### What is not counted -/

/-- A cluster apart from what its replicas have counted. -/
def Cluster.uncounted (c : Cluster) : Cluster :=
  { c with replicas := c.replicas.map Replica.uncounted }

lemma Cluster.uncounted_eq_iff {c c' : Cluster} : c.uncounted = c'.uncounted ↔
    (∀ i : ℕ, c.replicas[i]?.map Replica.uncounted = c'.replicas[i]?.map Replica.uncounted) ∧
      c.directory = c'.directory := by
  simp only [uncounted, mk.injEq]
  refine and_congr_left fun _ => ⟨fun h i => ?_, fun h => List.ext_getElem? fun i => ?_⟩
  · rw [← List.getElem?_map, h, List.getElem?_map]
  · rw [List.getElem?_map, List.getElem?_map, h i]

/-- What a change makes of a replica apart from what this has counted, it makes of a
cluster. -/
lemma Cluster.uncounted_modify {f g : Replica → Replica}
    (hf : ∀ r, (f r).uncounted = (g r.uncounted).uncounted) (c : Cluster) (i : ℕ) :
    (c.modify i f).uncounted = (c.uncounted.modify i g).uncounted := by
  refine uncounted_eq_iff.mpr ⟨fun j => ?_, rfl⟩
  simp only [modify, uncounted, List.getElem?_modify, List.getElem?_map]
  cases c.replicas[j]? with
  | none => rfl
  | some r =>
    by_cases hij : i = j
    · simpa [hij] using hf r
    · simp [hij, Replica.uncounted]

namespace Timeline

variable {t t' : Timeline} {moment : ℕ} {d : ℕ → Bool}

/-- A cluster in time apart from what its replicas have counted. -/
def uncounted (t : Timeline) : Timeline :=
  { t with cluster := t.cluster.uncounted }

/-! ### Timers -/

/-- What a timer does to a cluster. -/
def fire (c : Cluster) (p : ℕ × Wake) : Cluster :=
  match p.2 with
  | .expire node episode => c.modify node fun r => { r with outage := r.outage.expire episode }
  | _ => c

/-- Only timers of outages are due. -/
def OnlyTimers (a : Agenda Wake) : Prop :=
  ∀ p ∈ a, ∃ node episode, p.2 = .expire node episode

/-- What is due by a test is over, and it is some moment. -/
def pass (t : Timeline) (due : ℕ → Bool) (moment : ℕ) : Timeline :=
  { t with
    cluster := (t.agenda.takeWhile (due ∘ Prod.fst)).foldl fire t.cluster
    agenda := t.agenda.dropWhile (due ∘ Prod.fst)
    now := moment }

/-- What is due early and what is due later is what is due later. -/
lemma pass_pass {d' : ℕ → Bool} (h : ∀ due, d due = true → d' due = true) (m m' : ℕ) :
    (t.pass d m).pass d' m' = t.pass d' m' := by
  have himp : ∀ p : ℕ × Wake, (d ∘ Prod.fst) p = true → (d' ∘ Prod.fst) p = true :=
    fun p => h p.1
  simp only [pass, ← List.foldl_append, takeWhile_append_of_imp himp,
    dropWhile_dropWhile_of_imp himp]

lemma pass_of_not_due (h : ∀ p ∈ t.agenda.head?, ¬ d p.1 = true) : t.pass d t.now = t := by
  obtain ⟨cluster, now, links, agenda, pushers, gone⟩ := t
  cases agenda with
  | nil => rfl
  | cons p rest =>
    have hp : ¬ (d ∘ Prod.fst) p = true := h p rfl
    simp only [pass, List.takeWhile_cons_of_neg hp, List.dropWhile_cons_of_neg hp, List.foldl_nil]

/-- What becomes due happens, if there is enough fuel. -/
lemma wakeAll_eq {fuel : ℕ} (htimers : OnlyTimers t.agenda) (hfuel : t.agenda.length ≤ fuel) :
    ∃ now, wakeAll d fuel t = t.pass d now := by
  induction fuel generalizing t with
  | zero =>
    have hnil : t.agenda = [] := List.eq_nil_of_length_eq_zero (Nat.le_zero.mp hfuel)
    have hnone : ∀ p ∈ t.agenda.head?, ¬ d p.1 = true := by simp [hnil]
    exact ⟨t.now, (pass_of_not_due hnone).symm⟩
  | succ fuel ih =>
    rw [wakeAll]
    cases hagenda : t.agenda with
    | nil => exact ⟨t.now, (pass_of_not_due fun p hp => by simp [hagenda] at hp).symm⟩
    | cons p rest =>
      obtain ⟨due, w⟩ := p
      rw [hagenda] at htimers hfuel
      by_cases hdue : d due = true
      · obtain ⟨node, episode, hw⟩ := htimers (due, w) List.mem_cons_self
        cases hw
        have hrest : OnlyTimers rest := fun p hp => htimers p (List.mem_cons_of_mem _ hp)
        obtain ⟨now, hnow⟩ := ih (t := { t with
            cluster := fire t.cluster (due, .expire node episode)
            agenda := rest
            now := max t.now due }) hrest (by simpa using hfuel)
        have hfirst : (d ∘ Prod.fst) (due, Wake.expire node episode) = true := hdue
        refine ⟨now, ?_⟩
        simp only [if_pos hdue]
        refine hnow.trans ?_
        simp only [pass, hagenda, List.takeWhile_cons_of_pos hfirst,
          List.dropWhile_cons_of_pos hfirst, List.foldl_cons]
      · refine ⟨t.now, ?_⟩
        simp only [if_neg hdue]
        refine (pass_of_not_due fun p hp => ?_).symm
        rw [hagenda] at hp
        cases hp
        exact hdue

/-- What has been counted does not matter for timers. -/
lemma uncounted_foldl_fire {c c' : Cluster} (h : c.uncounted = c'.uncounted) (a : Agenda Wake) :
    (a.foldl fire c).uncounted = (a.foldl fire c').uncounted := by
  induction a generalizing c c' with
  | nil => exact h
  | cons p rest ih =>
    refine ih ?_
    obtain ⟨d, w⟩ := p
    cases w with
    | expire node episode =>
      let f (r : Replica) : Replica := { r with outage := r.outage.expire episode }
      have hf : ∀ r, (f r).uncounted = (f r.uncounted).uncounted := fun _ => rfl
      calc (c.modify node f).uncounted = (c.uncounted.modify node f).uncounted :=
            Cluster.uncounted_modify hf c node
        _ = (c'.uncounted.modify node f).uncounted := by rw [h]
        _ = (c'.modify node f).uncounted := (Cluster.uncounted_modify hf c' node).symm
    | _ => exact h

lemma uncounted_pass (h : t.uncounted = t'.uncounted) (d : ℕ → Bool) (moment : ℕ) :
    (t.pass d moment).uncounted = (t'.pass d moment).uncounted := by
  simp only [uncounted, mk.injEq] at h
  obtain ⟨hcluster, -, hlinks, hagenda, hpushers, hgone⟩ := h
  simp only [uncounted, pass, hlinks, hagenda, hpushers, hgone,
    uncounted_foldl_fire hcluster]

/-! ### Order -/

/-- Nothing is pushed periodically, and the timers to come are in order. -/
structure Orderly (t : Timeline) : Prop where
  pushers : t.pushers = []
  sorted : t.agenda.Pairwise fun p q => p.1 ≤ q.1
  timers : OnlyTimers t.agenda
  now_le : ∀ p ∈ t.agenda, t.now ≤ p.1

namespace Orderly

lemma start (c : Cluster) : (Timeline.start c).Orderly where
  pushers := rfl
  sorted := List.Pairwise.nil
  timers _ h := nomatch h
  now_le _ h := nomatch h

lemma of_eq (h : t.Orderly) (hpushers : t'.pushers = t.pushers) (hagenda : t'.agenda = t.agenda)
    (hnow : t'.now = t.now) : t'.Orderly where
  pushers := hpushers.trans h.pushers
  sorted := by
    rw [hagenda]
    exact h.sorted
  timers := by
    rw [hagenda]
    exact h.timers
  now_le := by
    rw [hagenda, hnow]
    exact h.now_le

lemma pass (h : t.Orderly) (hd : ∀ due, ¬ d due = true → moment ≤ due) :
    (t.pass d moment).Orderly where
  pushers := h.pushers
  sorted := h.sorted.sublist (List.dropWhile_sublist _)
  timers p hp := h.timers p ((List.dropWhile_sublist _).subset hp)
  now_le := le_of_mem_dropWhile h.sorted fun p => hd p.1

lemma arrange (h : t.Orderly) (length i episode : ℕ) :
    (t.arrange (t.now + length) (.expire i episode)).Orderly where
  pushers := h.pushers
  sorted := Agenda.pairwise_arrange h.sorted
  timers p hp := by
    rcases Agenda.mem_arrange.mp hp with rfl | hp
    · exact ⟨i, episode, rfl⟩
    · exact h.timers p hp
  now_le p hp := by
    rcases Agenda.mem_arrange.mp hp with rfl | hp
    · exact Nat.le_add_right _ _
    · exact h.now_le p hp

/-- **What a wait does.**  The timers that become due before its end fire. -/
theorem wait_eq (h : t.Orderly) (ms : ℕ) :
    t.wait ms = t.pass (· < t.now + ms) (t.now + ms) := by
  by_cases hzero : ms = 0
  · -- nothing is due before the present
    subst hzero
    refine (pass_of_not_due fun p hp => ?_).symm
    have hle := h.now_le p (List.mem_of_mem_head? hp)
    simpa using hle
  · obtain ⟨now, hwake⟩ : ∃ now, wakeAll (· < t.now + ms) (t.fuelUntil (t.now + ms)) t
        = t.pass (· < t.now + ms) now := wakeAll_eq h.timers (Nat.le_add_left _ _)
    simp only [Timeline.wait, if_neg hzero, hwake]
    rfl

/-- **What a sleep does.**  The timers that become due until its end fire. -/
theorem sleep_eq (h : t.Orderly) (ms : ℕ) :
    t.sleep ms = t.pass (· ≤ t.now + ms) (t.now + ms) := by
  obtain ⟨now, hwake⟩ : ∃ now, wakeAll (· ≤ t.now + ms) (t.fuelUntil (t.now + ms)) t
      = t.pass (· ≤ t.now + ms) now := wakeAll_eq h.timers (Nat.le_add_left _ _)
  simp only [Timeline.sleep, hwake]
  rfl

lemma wait (h : t.Orderly) (ms : ℕ) : (t.wait ms).Orderly := by
  rw [h.wait_eq]
  refine h.pass fun d hd => ?_
  simpa using hd

lemma sleep (h : t.Orderly) (ms : ℕ) : (t.sleep ms).Orderly := by
  rw [h.sleep_eq]
  refine h.pass fun d hd => ?_
  simp only [decide_eq_true_eq] at hd
  omega

/-- **Waiting adds up.**  To wait twice is to wait once for as long as both. -/
theorem wait_wait (h : t.Orderly) (m n : ℕ) : (t.wait m).wait n = t.wait (m + n) := by
  have hnow : (t.wait m).now = t.now + m := by rw [h.wait_eq, Timeline.pass]
  have himp : ∀ due, decide (due < t.now + m) = true → decide (due < t.now + (m + n)) = true :=
    fun due hdue => by
      simp only [decide_eq_true_eq] at hdue ⊢
      omega
  rw [(h.wait m).wait_eq, hnow, Nat.add_assoc, h.wait_eq, h.wait_eq]
  exact pass_pass himp _ _

/-! ### Events -/

lemma deliver {α : Type} (h : t.Orderly) (e : Endpoint)
    (serve : Replica → Except Refusal α × Replica) : (t.deliver e serve).2.Orderly :=
  h.of_eq rfl rfl rfl

lemma carry {α : Type} (h : t.Orderly) (course : Course) (e : Endpoint)
    (serve : Replica → Except Refusal α × Replica) : (t.carry course e serve).2.Orderly := by
  cases course with
  | served ms => exact (h.wait ms).deliver e serve
  | servedFirst ms heard => exact (h.deliver e serve).wait ms
  | lost ms error => exact h.wait ms

/-- A request keeps the agenda in order. -/
lemma perform (h : t.Orderly) (i : ℕ) (r : Replica) (request : Request) (courses : List Course) :
    (Coordination.perform (Coursed.surroundings i r) request ⟨t, courses⟩).2.time.Orderly :=
  Coordination.perform_rel (Coursed.surroundings i r)
    (R := fun s u => s.time.Orderly → u.time.Orderly) (fun _ h => h)
    (fun hst htu h => htu (hst h)) (fun _ _ h => h.of_eq rfl rfl rfl)
    (fun _ _ _ _ h => h.carry _ _ _) (fun _ _ _ h => h.carry _ _ _)
    (fun _ _ _ h => h.carry _ _ _) (fun _ length episode _ h => h.arrange length i episode)
    ⟨t, courses⟩ h

lemma act (h : t.Orderly) (event : Event) : (t.act event).2.Orderly := by
  cases event with
  | request i request courses =>
    simp only [Timeline.act]
    split
    · exact h
    · exact (h.perform i _ request courses).of_eq rfl rfl rfl
  | passage ms => exact h.sleep ms
  | attachment i => exact h.of_eq rfl rfl rfl
  | _ => exact h.of_eq rfl rfl rfl

lemma run (h : t.Orderly) (events : List Event) : (t.run events).Orderly := by
  induction events generalizing t with
  | nil => exact h
  | cons event rest ih => exact ih (h.act event)

end Orderly

/-- **Order.**  Whatever happens to a cluster, its agenda stays in order. -/
theorem orderly_run (c : Cluster) (events : List Event) : ((start c).run events).Orderly :=
  (Orderly.start c).run events

end Timeline

end QuorumStore
