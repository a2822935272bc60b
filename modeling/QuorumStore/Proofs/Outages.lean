/-
The outages of a replica, in any order of requests, outages and timers that fire late.

* `Timed.Timely.act`: a replica is out of service exactly while its last timer has not
  fired, and all the timers before have;
* `Timed.Timely.run_of_down`: out of service all but its preference list stays as it is;
* `Timed.outage_run`: so an outage is begun exactly by a replica in service, it is ended
  by its own timer and by no other, and the store is then what it was when it began.
-/
import QuorumStore.Proofs.Requests
import QuorumStore.Replica.Timed

namespace QuorumStore

/-! ### Outages and their lengths -/

namespace Outage

variable {o : Outage}

/-- The timer of an outage does not run longer than the outage is to last. -/
lemma timer_le (duration : ℕ) : timer duration ≤ duration := by
  rw [timer]
  split
  · rename_i h
    exact le_trans (by decide) h
  · exact le_rfl

/-- A timer that was set for another outage does nothing. -/
lemma expire_of_ne {episode : ℕ} (h : o.episode ≠ episode) : o.expire episode = o :=
  if_neg fun hends => h hends.2

lemma down_expire (o : Outage) : (o.expire o.episode).down = false := by
  rw [expire]
  cases h : o.down <;> simp [h]

lemma episode_expire (o : Outage) (episode : ℕ) : (o.expire episode).episode = o.episode := by
  rw [expire]
  split <;> rfl

end Outage

namespace Timed

variable {t : Timed} {request : Request} {answers : List Answer}

lemma run_cons (t : Timed) (event : Event) (events : List Event) :
    t.run (event :: events) = (t.act event).2.run events := rfl

/-! ### Requests -/

namespace Serving

/-- The answers that peers give do not touch the replica. -/
lemma secluded : surroundings.Secluded where
  update _ _ := rfl
  setTimer _ _ _ := rfl
  replicate _ _ _ _ := rfl
  fetch _ _ _ := rfl
  absorb _ _ _ := rfl

end Serving

/-- A replica out of service refuses every request but a preference list.  It calls no
peer and sets no timer, and all about it stays as it is. -/
lemma act_request_of_down (hdown : t.replica.outage.down = true)
    (hmethod : request.method ≠ .assignList) (answers : List Answer) :
    t.act (.request request answers) = (some (.error .crashed), t) := by
  have hrefused : Coordination.perform Serving.surroundings request ⟨t, answers⟩
      = (.error .crashed, ⟨t, answers⟩) := Coordination.perform_of_down hdown rfl hmethod
  rw [act, hrefused]

/-- In service or not, a replica takes over a preference list. -/
lemma act_assignList (t : Timed) (list : List Endpoint) (answers : List Answer) :
    t.act (.request (.assignList list) answers)
      = (some (.ok .assignList), { t with replica := { t.replica with list := list } }) := rfl

lemma act_request_crash (t : Timed) (seconds : UInt64) (answers : List Answer) :
    t.act (.request (.crash seconds) answers) = t.act (.crash (seconds.toNat * 1000)) := by
  simp only [act, Coordination.perform, Coordination.crash, Coordination.crashFor,
    Serving.surroundings]
  split <;> rfl

/-- A request that does not begin an outage leaves the timers alone. -/
lemma timers_act_request (h : request.method ≠ .crash) (t : Timed) (answers : List Answer) :
    (t.act (.request request answers)).2.timers = t.timers :=
  Coordination.perform_rel Serving.surroundings
    (R := fun s u => u.timed.timers = s.timed.timers) (fun _ => rfl)
    (fun hst htu => htu.trans hst) (fun _ _ => rfl) (fun _ _ _ _ => rfl) (fun _ _ _ => rfl)
    (fun _ _ _ => rfl) (fun hcrash => absurd hcrash h) ⟨t, answers⟩

lemma outage_act_request (h : request.method ≠ .crash) (t : Timed) (answers : List Answer) :
    (t.act (.request request answers)).2.replica.outage = t.replica.outage :=
  (congrArg Replica.outage (Coordination.self_perform Serving.secluded request ⟨t, answers⟩)).trans
    (Replica.outage_upon h _ _)

/-- A request begins an outage, or leaves it and the timers alone. -/
lemma act_request_cases (t : Timed) (request : Request) (answers : List Answer) :
    (∃ duration, t.act (.request request answers) = t.act (.crash duration)) ∨
      (t.act (.request request answers)).2.replica.outage = t.replica.outage ∧
        (t.act (.request request answers)).2.timers = t.timers := by
  by_cases hmethod : request.method = .crash
  · cases request with
    | crash seconds => exact .inl ⟨_, act_request_crash t seconds answers⟩
    | _ => cases hmethod
  · exact .inr ⟨outage_act_request hmethod t answers, timers_act_request hmethod t answers⟩

/-! ### Outages -/

lemma act_crash_of_down (hdown : t.replica.outage.down = true) (duration : ℕ) :
    t.act (.crash duration) = (some (.error .crashed), t) := by
  simp [act, Coordination.crashFor, Serving.surroundings, Outage.start, hdown, Except.map]

/-- What the beginning of an outage does: the replica goes out of service, and one timer is
set. -/
lemma act_crash_of_up (hup : t.replica.outage.down = false) (duration : ℕ) :
    t.act (.crash duration) = (some (.ok (.crash true)),
      { t with
        replica := { t.replica with outage := ⟨true,
          if duration ≤ Outage.calendarRoom then some (t.now + duration) else none,
          t.replica.outage.episode + 1⟩ }
        timers := t.timers ++
          [⟨t.replica.outage.episode + 1, t.now + Outage.timer duration, false⟩] }) := by
  simp [act, Coordination.crashFor, Serving.surroundings, Outage.start, hup, Except.map]

/-! ### Timers -/

/-- There is one timer for each outage.  The last of them has not fired yet exactly if the
replica is out of service; all others have. -/
structure Timely (t : Timed) : Prop where
  episode : t.replica.outage.episode = t.timers.length
  timers : ∀ k timer, t.timers[k]? = some timer → timer.episode = k + 1
  pending : ∀ k timer, t.timers[k]? = some timer →
    (timer.fired = false ↔ t.replica.outage.down = true ∧ k + 1 = t.timers.length)
  down : t.replica.outage.down = true → t.timers ≠ []

/-- The timer at an index has fired. -/
def Fired (t : Timed) (k : ℕ) : Prop :=
  ∃ timer, t.timers[k]? = some timer ∧ timer.fired = true

instance (t : Timed) (k : ℕ) : Decidable (t.Fired k) :=
  decidable_of_iff _ (Option.any_eq_true Timer.fired t.timers[k]?)

namespace Timely

lemma start (r : Replica) : (Timed.start r).Timely where
  episode := rfl
  timers _ _ h := nomatch h
  pending _ _ h := nomatch h
  down h := nomatch h

/-- What leaves the outage and the timers alone keeps them timely. -/
lemma of_eq {t' : Timed} (h : t.Timely) (houtage : t'.replica.outage = t.replica.outage)
    (htimers : t'.timers = t.timers) : t'.Timely where
  episode := by rw [houtage, htimers, h.episode]
  timers := by
    rw [htimers]
    exact h.timers
  pending := by
    rw [houtage, htimers]
    exact h.pending
  down := by
    rw [houtage, htimers]
    exact h.down

lemma crash (h : t.Timely) (duration : ℕ) : (t.act (.crash duration)).2.Timely := by
  by_cases hdown : t.replica.outage.down = true
  · rw [act_crash_of_down hdown]
    exact h
  have hup : t.replica.outage.down = false := by simpa using hdown
  rw [act_crash_of_up hup]
  -- a timer is one of the old ones, which have all fired, or the new one at the end
  have hcases : ∀ k timer, (t.timers ++ [(⟨t.replica.outage.episode + 1,
      t.now + Outage.timer duration, false⟩ : Timer)])[k]? = some timer →
      (t.timers[k]? = some timer ∧ k < t.timers.length) ∨
        (k = t.timers.length ∧ timer.episode = t.replica.outage.episode + 1 ∧
          timer.fired = false) := by
    intro k timer hk
    rcases Nat.lt_trichotomy k t.timers.length with hlt | rfl | hgt
    · rw [List.getElem?_append_left hlt] at hk
      exact .inl ⟨hk, hlt⟩
    · rw [List.getElem?_concat_length] at hk
      cases hk
      exact .inr ⟨rfl, rfl, rfl⟩
    · rw [List.getElem?_eq_none (by simp; omega)] at hk
      cases hk
  refine ⟨?_, fun k timer hk => ?_, fun k timer hk => ?_, fun _ => by simp⟩
  · simp [h.episode]
  · rcases hcases k timer hk with ⟨hold, -⟩ | ⟨rfl, hepisode, -⟩
    · exact h.timers k timer hold
    · rw [hepisode, h.episode]
  · rcases hcases k timer hk with ⟨hold, hlt⟩ | ⟨rfl, -, hfired⟩
    · have hpending := h.pending k timer hold
      simp only [hup, List.length_append, List.length_singleton] at hpending ⊢
      simp only [Bool.false_eq_true, false_and, iff_false, true_and] at hpending ⊢
      exact ⟨fun hfired => absurd hfired hpending, fun hlast => absurd hlast (by omega)⟩
    · simp [hfired]

/-- The timer that fires is the last one, and it ends the outage. -/
lemma fire_eq (h : t.Timely) (k : ℕ) :
    t.fire k = t ∨ ∃ timer, t.timers[k]? = some timer ∧ timer.fired = false ∧
      t.replica.outage.down = true ∧ k + 1 = t.timers.length ∧
      t.fire k = { t with
        replica := { t.replica with outage := t.replica.outage.expire t.replica.outage.episode }
        timers := t.timers.set k { timer with fired := true } } := by
  rw [fire]
  cases hk : t.timers[k]? with
  | none => exact .inl rfl
  | some timer =>
    by_cases hidle : timer.fired = true ∨ t.now < timer.due
    · exact .inl (if_pos hidle)
    · rw [not_or, Bool.not_eq_true, not_lt] at hidle
      obtain ⟨hdown, hlast⟩ := (h.pending k timer hk).mp hidle.1
      refine .inr ⟨timer, rfl, hidle.1, hdown, hlast, ?_⟩
      have hepisode : timer.episode = t.replica.outage.episode := by
        rw [h.timers k timer hk, hlast, h.episode]
      simp [hidle, hepisode]

lemma fire (h : t.Timely) (k : ℕ) : (t.fire k).Timely := by
  rcases h.fire_eq k with heq | ⟨timer, hk, -, -, hlast, heq⟩
  · rw [heq]
    exact h
  rw [heq]
  -- every timer is as it was, except that the last one has fired
  have hcases : ∀ j timer', (t.timers.set k { timer with fired := true })[j]? = some timer' →
      (j = k ∧ timer' = { timer with fired := true }) ∨
        (j ≠ k ∧ t.timers[j]? = some timer') := by
    intro j timer' hj
    rw [List.getElem?_set] at hj
    split at hj
    · rename_i hkj
      split at hj
      · cases hj
        exact .inl ⟨hkj.symm, rfl⟩
      · cases hj
    · rename_i hkj
      exact .inr ⟨Ne.symm hkj, hj⟩
  have hup : (t.replica.outage.expire t.replica.outage.episode).down = false :=
    Outage.down_expire _
  refine ⟨?_, fun j timer' hj => ?_, fun j timer' hj => ?_, fun hdown => ?_⟩
  · rw [List.length_set]
    exact (Outage.episode_expire _ _).trans h.episode
  · rcases hcases j timer' hj with ⟨rfl, rfl⟩ | ⟨-, hold⟩
    · exact h.timers j timer hk
    · exact h.timers j timer' hold
  · simp only [hup, Bool.false_eq_true, false_and, iff_false]
    rcases hcases j timer' hj with ⟨rfl, rfl⟩ | ⟨hne, hold⟩
    · simp
    · intro hfired
      have := ((h.pending j timer' hold).mp hfired).2
      omega
  · exact absurd hdown (by simp [hup])

/-- One event keeps the timers timely. -/
theorem act (h : t.Timely) (event : Event) : (t.act event).2.Timely := by
  cases event with
  | request request answers =>
    rcases t.act_request_cases request answers with ⟨duration, heq⟩ | ⟨houtage, htimers⟩
    · rw [heq]
      exact h.crash duration
    · exact h.of_eq houtage htimers
  | crash duration => exact h.crash duration
  | passage ms => exact h.of_eq rfl rfl
  | firing k => exact h.fire k

/-- And so does a run. -/
lemma run (h : t.Timely) (events : List Event) : (t.run events).Timely := by
  induction events generalizing t with
  | nil => exact h
  | cons event rest ih => exact ih (h.act event)

/-- A replica is out of service exactly while its last timer has not fired. -/
lemma down_iff (h : t.Timely) :
    t.replica.outage.down = true ↔ ∃ k, k + 1 = t.timers.length ∧ ¬ t.Fired k := by
  constructor
  · intro hdown
    have hpos : 0 < t.timers.length := List.length_pos_iff.mpr (h.down hdown)
    refine ⟨t.timers.length - 1, by omega, ?_⟩
    rintro ⟨timer, hk, hfired⟩
    have hnot := (h.pending _ timer hk).mpr ⟨hdown, by omega⟩
    rw [hfired] at hnot
    cases hnot
  · rintro ⟨k, hk, hnot⟩
    have hlast : t.timers[k]? = some t.timers[k] := List.getElem?_eq_getElem (by omega)
    refine ((h.pending k _ hlast).mp ?_).1
    by_contra hfired
    exact hnot ⟨_, hlast, by simpa using hfired⟩

/-- The timers of earlier outages have fired. -/
lemma fired_of_lt (h : t.Timely) {k : ℕ} (hk : k + 1 < t.timers.length) : t.Fired k := by
  have hget : t.timers[k]? = some t.timers[k] := List.getElem?_eq_getElem (by omega)
  refine ⟨_, hget, ?_⟩
  by_contra hpending
  have hlast := ((h.pending k _ hget).mp (by simpa using hpending)).2
  omega

end Timely

lemma fire_of_fired {k : ℕ} (h : t.Fired k) : t.fire k = t := by
  obtain ⟨timer, hk, hfired⟩ := h
  simp [fire, hk, hfired]

/-- A timer that is due can fire. -/
lemma fire_of_due {k : ℕ} {timer : Timer} (hk : t.timers[k]? = some timer)
    (hpending : timer.fired = false) (hdue : timer.due ≤ t.now) :
    t.fire k = { t with
      replica := { t.replica with outage := t.replica.outage.expire timer.episode }
      timers := t.timers.set k { timer with fired := true } } := by
  simp [fire, hk, hpending, hdue]

/-- A timer that has fired stays so. -/
lemma Fired.act {k : ℕ} (h : t.Fired k) (event : Event) : (t.act event).2.Fired k := by
  have hcrash : ∀ duration, (t.act (.crash duration)).2.Fired k := by
    intro duration
    cases hdown : t.replica.outage.down with
    | true =>
      rw [act_crash_of_down hdown]
      exact h
    | false =>
      obtain ⟨timer, hk, hfired⟩ := h
      rw [act_crash_of_up hdown]
      have hlt : k < t.timers.length := (List.getElem?_eq_some_iff.mp hk).1
      exact ⟨timer, (List.getElem?_append_left hlt).trans hk, hfired⟩
  cases event with
  | request request answers =>
    rcases t.act_request_cases request answers with ⟨duration, heq⟩ | ⟨-, htimers⟩
    · rw [heq]
      exact hcrash duration
    · rw [Fired, htimers]
      exact h
  | crash duration => exact hcrash duration
  | passage ms => exact h
  | firing j =>
    change (t.fire j).Fired k
    rw [fire]
    split
    · exact h
    · split
      · exact h
      · rename_i timer hj _
        obtain ⟨timer', hk, hfired⟩ := h
        rw [Fired, List.getElem?_set]
        split
        · exact ⟨_, if_pos (List.getElem?_eq_some_iff.mp hj).1, rfl⟩
        · exact ⟨timer', hk, hfired⟩

lemma Fired.run {k : ℕ} (h : t.Fired k) (events : List Event) : (t.run events).Fired k := by
  induction events generalizing t with
  | nil => exact h
  | cons event rest ih => exact ih (h.act event)

/-! ### Out of service -/

/-- Out of service nothing changes but the preference list, until the last timer fires. -/
lemma Timely.act_of_down (h : t.Timely) (hdown : t.replica.outage.down = true) {k : ℕ}
    (hk : k + 1 = t.timers.length) (event : Event) (hpending : ¬ (t.act event).2.Fired k) :
    ∃ list now, (t.act event).2 = { t with replica := { t.replica with list }, now } := by
  cases event with
  | request request answers =>
    by_cases hmethod : request.method = .assignList
    · cases request with
      | assignList list => exact ⟨list, t.now, rfl⟩
      | _ => cases hmethod
    · rw [act_request_of_down hdown hmethod]
      exact ⟨t.replica.list, t.now, rfl⟩
  | crash duration =>
    rw [act_crash_of_down hdown]
    exact ⟨t.replica.list, t.now, rfl⟩
  | passage ms => exact ⟨t.replica.list, t.now + ms, rfl⟩
  | firing j =>
    change ¬ (t.fire j).Fired k at hpending
    change ∃ list now, t.fire j = _
    rcases h.fire_eq j with heq | ⟨timer, hj, -, -, hlast, heq⟩
    · rw [heq]
      exact ⟨t.replica.list, t.now, rfl⟩
    · obtain rfl : j = k := by omega
      rw [heq] at hpending
      exact absurd ⟨{ timer with fired := true }, by simp [(List.getElem?_eq_some_iff.mp hj).1],
        rfl⟩ hpending

/-- So the replica is what it was when the outage began, apart from its preference list, as
long as the timer of the outage has not fired. -/
theorem Timely.run_of_down (h : t.Timely) (hdown : t.replica.outage.down = true) {k : ℕ}
    (hk : k + 1 = t.timers.length) (later : List Event) (hpending : ¬ (t.run later).Fired k) :
    ∃ list now, t.run later = { t with replica := { t.replica with list }, now } := by
  induction later generalizing t with
  | nil => exact ⟨t.replica.list, t.now, rfl⟩
  | cons event rest ih =>
    rw [run_cons] at hpending ⊢
    obtain ⟨list, now, hact⟩ :=
      h.act_of_down hdown hk event fun hfired => hpending (hfired.run rest)
    have hnext := h.act event
    rw [hact] at hpending hnext ⊢
    exact ih hnext hdown hk hpending

/-- An outage ends as soon as its timer fires, which it may when the outage has lasted as
long as it was to last.  All but the preference list is then as it was before. -/
lemma Timely.recovery (h : t.Timely) (hup : t.replica.outage.down = false) (duration : ℕ)
    (later : List Event) :
    let t' := (t.act (.crash duration)).2
    let u := t'.run later
    let k := t.timers.length
    ¬ u.Fired k →
      u.calls = t.calls ∧ u.replica = { t'.replica with list := u.replica.list } ∧
      (t.now + duration ≤ u.now → (u.act (.firing k)).2.replica = { t.replica with
        list := u.replica.list, outage := ⟨false, none, t.replica.outage.episode + 1⟩ }) := by
  intro t' u k hpending
  have hcrash := act_crash_of_up hup duration
  have hnext : t'.Timely := h.act _
  have hdown : t'.replica.outage.down = true := by simp [t', hcrash]
  have hlength : k + 1 = t'.timers.length := by simp [t', k, hcrash]
  obtain ⟨list, now, hu⟩ := hnext.run_of_down hdown hlength later hpending
  have htimer : t'.timers[k]? =
      some ⟨t.replica.outage.episode + 1, t.now + Outage.timer duration, false⟩ := by
    simp [t', k, hcrash]
  change u = _ at hu
  rw [hu]
  refine ⟨by simp [t', hcrash], rfl, fun hdue => ?_⟩
  have hdue : t.now + Outage.timer duration ≤ now :=
    le_trans (Nat.add_le_add_left (Outage.timer_le duration) _) hdue
  change (Timed.fire _ k).replica = _
  rw [fire_of_due (t := ⟨{ t'.replica with list }, now, t'.timers, t'.calls⟩) htimer rfl hdue]
  simp [t', hcrash, Outage.expire]

/-- **Outages.**  Let anything happen to a replica that was never out of service.

* It goes out of service when it is told to exactly if it is in service, and a timer is set;
  else all about it stays as it is.
* It is out of service exactly while the timer of its last outage has not fired.  The timers
  of earlier outages have fired, and would not end this one.
* Out of service it refuses all but a preference list, calls no peer, and stays as it is.
* In service or not, a preference list that it is given is its list from then on, and else
  nothing changes.
* From the beginning of an outage until its timer fires nothing changes but the preference
  list, and it is with the same store that the replica is in service again. -/
theorem outage_run (r : Replica) (events : List Event) :
    let t := (start r).run events
    let o := t.replica.outage
    (∀ duration,
      (o.down = true → t.act (.crash duration) = (some (.error .crashed), t)) ∧
      (o.down = false → t.act (.crash duration) = (some (.ok (.crash true)), { t with
        replica := { t.replica with outage := ⟨true,
          if duration ≤ Outage.calendarRoom then some (t.now + duration) else none,
          o.episode + 1⟩ }
        timers := t.timers ++ [⟨o.episode + 1, t.now + Outage.timer duration, false⟩] }))) ∧
    (∀ seconds answers,
      t.act (.request (.crash seconds) answers) = t.act (.crash (seconds.toNat * 1000))) ∧
    (o.down = true ↔ ∃ k, k + 1 = t.timers.length ∧ ¬ t.Fired k) ∧
    (∀ k, k + 1 < t.timers.length → t.Fired k ∧ t.act (.firing k) = (none, t) ∧
      ∀ timer, t.timers[k]? = some timer → o.expire timer.episode = o) ∧
    (o.down = true → ∀ request answers, request.method ≠ .assignList →
      t.act (.request request answers) = (some (.error .crashed), t)) ∧
    (∀ list answers, t.act (.request (.assignList list) answers) =
      (some (.ok .assignList), { t with replica := { t.replica with list := list } })) ∧
    ∀ duration later, o.down = false →
      let t' := (t.act (.crash duration)).2
      let u := t'.run later
      let k := t.timers.length
      ¬ u.Fired k →
        u.calls = t.calls ∧ u.replica = { t'.replica with list := u.replica.list } ∧
        (t.now + duration ≤ u.now → (u.act (.firing k)).2.replica = { t.replica with
          list := u.replica.list, outage := ⟨false, none, o.episode + 1⟩ }) := by
  intro t o
  have htimely : t.Timely := (Timely.start r).run events
  refine ⟨fun duration => ⟨fun hdown => act_crash_of_down hdown duration,
      fun hup => act_crash_of_up hup duration⟩,
    act_request_crash t, htimely.down_iff, fun k hk => ?_,
    fun hdown request answers hmethod => act_request_of_down hdown hmethod answers,
    act_assignList t, fun duration later hup => htimely.recovery hup duration later⟩
  have hfired : t.Fired k := htimely.fired_of_lt hk
  refine ⟨hfired, by rw [act, fire_of_fired hfired], fun timer htimer => ?_⟩
  have hepisode : o.episode = t.timers.length := htimely.episode
  refine Outage.expire_of_ne ?_
  rw [htimely.timers k timer htimer]
  omega

/-- A replica is put out of service twice.  A preference list reaches it the second time and
stays when the replica is back; a write does not reach it, and the timer of the first time
does not end the second. -/
theorem outage_run_twice :
    let r := Replica.new ⟨"localhost", 8000⟩ "n1" ⟨1, 1⟩ 500
    let write (key : String) : Event := .request (.put key (.ofPairs []) [1]) []
    let list : List Endpoint := [⟨"localhost", 8000⟩, ⟨"localhost", 8001⟩]
    let t := (start r).run [.crash 5, .passage 7, .firing 0, write "k"]
    let t' := (t.act (.crash 9)).2
    let u := t'.run [write "l", .request (.assignList list) [], .firing 0, .passage 9, .firing 0]
    t.replica.outage.down = false ∧ t.timers.length = 1 ∧ t.Fired 0 ∧ t.replica.list = [] ∧
      t'.replica.outage.down = true ∧ t'.act (write "l") = (some (.error .crashed), t') ∧
      t'.act (.request (.assignList list) []) =
        (some (.ok .assignList), { t' with replica := { t'.replica with list := list } }) ∧
      ¬ u.Fired 1 ∧ u.replica.list = list ∧ (u.act (.firing 1)).2.replica = { t.replica with
        list := list, outage := ⟨false, none, 2⟩ } := by
  intro r write list t t' u
  have hup : t.replica.outage.down = false := by decide +kernel
  have hdown : t'.replica.outage.down = true := by decide +kernel
  have hpending : ¬ u.Fired 1 := by decide +kernel
  have hlist : u.replica.list = list := by decide +kernel
  obtain ⟨-, -, -, -, -, -, hrecovery⟩ :=
    outage_run r [.crash 5, .passage 7, .firing 0, write "k"]
  obtain ⟨-, -, -, -, hrefused, htaken, -⟩ :=
    outage_run r [.crash 5, .passage 7, .firing 0, write "k", .crash 9]
  have hends := (hrecovery 9 _ hup hpending).2.2 (by decide +kernel)
  exact ⟨hup, by decide +kernel, by decide +kernel, by decide +kernel, hdown,
    hrefused hdown _ [] nofun, htaken list [], hpending, hlist, hlist ▸ hends⟩

end Timed

end QuorumStore
