/-
What a read at a replica comes to.  The replica merges into what it holds of the key what one
peer after the other answers, until enough of them have answered or none is left.

* `Siblings.mergeAll`: version sets that are merged one after the other;
* `Timed.walk_fetch`: which calls a read makes, and what it gets;
* `Cluster.walk_fetch`: in a cluster it gets what the peers hold, and changes nothing there;
* `Timed.get_of_answers`: so the answer and all that is left follow from the preference list,
  the quorum, and what the peers answer.
-/
import QuorumStore.Proofs.MaximalClocks
import QuorumStore.Proofs.Refusals
import QuorumStore.Proofs.WriteWalks
import QuorumStore.Replica.Timed

namespace QuorumStore

lemma Except.eq_ok_of_toOption_eq_some {ε α : Type} {x : Except ε α} {a : α}
    (h : x.toOption = some a) : x = .ok a := by
  cases x with
  | ok b => exact congrArg Except.ok (Option.some.inj h)
  | error e => cases h

/-! ### Sets that are merged one after the other -/

namespace Siblings

variable {held : Siblings} {more : List Siblings} {v : Version}

/-- Merges version sets one after the other into the held ones. -/
def mergeAll (held : Siblings) (more : List Siblings) : Siblings :=
  more.foldl (fun got incoming => (got.merge incoming).versions) held

lemma mergeAll_concat (held : Siblings) (more : List Siblings) (last : Siblings) :
    held.mergeAll (more ++ [last]) = ((held.mergeAll more).merge last).versions :=
  List.foldl_concat ..

lemma covers_mergeAll {c : Clock} :
    (held.mergeAll more).Covers c ↔ ∃ s ∈ held :: more, s.Covers c := by
  induction more generalizing held with
  | nil => simp [mergeAll]
  | cons incoming rest ih =>
    change ((held.merge incoming).versions.mergeAll rest).Covers c ↔ _
    rw [ih]
    simp only [List.exists_mem_cons_iff, covers_merge, or_assoc]

lemma antichain_mergeAll (hheld : held.Antichain) (hmore : ∀ s ∈ more, s.Antichain) :
    (held.mergeAll more).Antichain := by
  induction more generalizing held with
  | nil => exact hheld
  | cons incoming rest ih =>
    rw [List.forall_mem_cons] at hmore
    exact ih (antichain_merge hheld hmore.1) hmore.2

/-- The clocks of merged antichains are the maximal ones of all. -/
theorem mem_clocks_mergeAll_iff (hheld : held.Antichain) (hmore : ∀ s ∈ more, s.Antichain)
    {clock : Clock} :
    clock ∈ (held.mergeAll more).clocks ↔
      Maximal (fun c => ∃ s ∈ held :: more, c ∈ s.clocks) clock := by
  refine (antichain_mergeAll hheld hmore).mem_clocks_iff_of_covers fun c => ?_
  rw [covers_mergeAll]
  simp only [covers_iff_exists_clock]
  exact ⟨fun ⟨s, hs, d, hd, hle⟩ => ⟨d, ⟨s, hs, hd⟩, hle⟩,
    fun ⟨d, ⟨s, hs, hd⟩, hle⟩ => ⟨s, hs, d, hd, hle⟩⟩

/-- A merged version comes from the earliest set with its clock. -/
theorem exists_earliest_of_mem_mergeAll (hv : v ∈ held.mergeAll more) :
    ∃ before s after, held :: more = before ++ s :: after ∧ v ∈ s ∧
      ∀ earlier ∈ before, v.clock ∉ earlier.clocks := by
  -- the set that was merged last counts only for what none of the others covers
  induction more using List.reverseRecOn with
  | nil => exact ⟨[], held, [], rfl, hv, by simp⟩
  | append_singleton more last ih =>
    rw [mergeAll_concat] at hv
    by_cases hbefore : v ∈ held.mergeAll more
    · obtain ⟨before, s, after, hsets, hs, hearlier⟩ := ih hbefore
      refine ⟨before, s, after ++ [last], ?_, hs, hearlier⟩
      rw [← List.cons_append, hsets, List.append_assoc, List.cons_append]
    · rcases mem_merge.mp hv with ⟨hmem, -⟩ | ⟨hlast, hnew⟩
      · exact absurd hmem hbefore
      · refine ⟨held :: more, last, [], by simp, hlast, fun earlier hearlier hclock => hnew ?_⟩
        exact covers_mergeAll.mpr
          ⟨earlier, hearlier, covers_iff_exists_clock.mpr ⟨v.clock, hclock, le_rfl⟩⟩

/-- There is nothing if nothing is covered. -/
lemma eq_nil_iff_forall_not_covers {s : Siblings} : s = [] ↔ ∀ c, ¬ s.Covers c := by
  constructor
  · rintro rfl c
    exact not_covers_nil
  · exact fun h => List.eq_nil_iff_forall_not_mem.mpr fun v hv => h v.clock (covers_of_mem hv)

lemma mergeAll_eq_nil_iff : held.mergeAll more = [] ↔ ∀ s ∈ held :: more, s = [] := by
  simp only [eq_nil_iff_forall_not_covers, covers_mergeAll, not_exists, not_and]
  exact ⟨fun h s hs c => h c s hs, fun h c s hs => h s hs c⟩

end Siblings

/-! ### Reading from what peers answer -/

namespace Timed

/-- What a call leaves of a replica by which this asks a peer for versions. -/
def afterFetch (t : Timed) (call : Endpoint × Answer) : Timed :=
  { t with
    replica := t.replica.afterCall .fetch (Coordination.failure? call.2.fetch)
    calls := (.fetch, call.1) :: t.calls }

/-- What calls leave that are made one after the other. -/
def afterFetches (t : Timed) (calls : List (Endpoint × Answer)) : Timed :=
  { t with
    replica := t.replica.countFailures .fetch
      (calls.filterMap fun call => Coordination.failure? call.2.fetch)
    calls := (calls.map fun call => (Method.fetch, call.1)).reverse ++ t.calls }

lemma afterFetches_afterFetch (t : Timed) (call : Endpoint × Answer)
    (calls : List (Endpoint × Answer)) :
    (t.afterFetch call).afterFetches calls = t.afterFetches (call :: calls) := by
  have hreplica := Replica.countFailures_afterCall .fetch
    (fun call : Endpoint × Answer => Coordination.failure? call.2.fetch) call calls t.replica
  simp only [afterFetches, afterFetch, hreplica, List.map_cons, List.reverse_cons,
    List.append_assoc, List.singleton_append]

/-- A call hears the next answer. -/
lemma counted_fetch (key : String) (t : Timed) (e : Endpoint) (answer : Answer)
    (answers : List Answer) :
    Coordination.counted Serving.surroundings .fetch
        (fun p => Serving.surroundings.fetch p key) e ⟨t, answer :: answers⟩
      = (answer.fetch, ⟨t.afterFetch (e, answer), answers⟩) := by
  simp only [Coordination.counted, Serving.surroundings, Serving.call, List.head?_cons,
    Option.map_some, Option.getD_some, List.tail_cons, afterFetch]
  cases answer.fetch <;> rfl

/-- **The calls of a read.**  A read turns to the shortest beginning of its peers of which as
many answer with versions as it still wants, and to all if there are not so many. -/
lemma walk_fetch (key : String) (quorum reads : ℕ) (held : Siblings) (t : Timed)
    {peers : List Endpoint} {answers : List Answer} (hlength : answers.length = peers.length) :
    ∃ called, IsShortest (fun call => call.2.fetch.isOk) (quorum - reads) (peers.zip answers)
        called ∧
      let walked := Coordination.walk (Coordination.counted Serving.surroundings .fetch
          fun p => Serving.surroundings.fetch p key)
        (fun got => quorum ≤ got.1) (fun got remote => (got.1 + 1, (got.2.merge remote).versions))
        peers (reads, held) ⟨t, answers⟩
      walked.1.2 = held.mergeAll (called.filterMap fun call => call.2.fetch.toOption) ∧
        walked.2.timed = t.afterFetches called := by
  induction peers generalizing answers reads held t with
  | nil =>
    exact ⟨[], .nil _ _, rfl, rfl⟩
  | cons e rest ih =>
    obtain _ | ⟨answer, answers⟩ := answers
    · cases hlength
    have hlength' : answers.length = rest.length := Nat.succ.inj hlength
    by_cases henough : quorum ≤ reads
    · refine ⟨[], ?_, ?_⟩
      · rw [Nat.sub_eq_zero_of_le henough]
        exact .of_zero _ _
      · simp only [Coordination.walk, henough, decide_true, if_true]
        exact ⟨rfl, rfl⟩
    · obtain ⟨n, hn⟩ : ∃ n, quorum - reads = n + 1 := ⟨quorum - reads - 1, by omega⟩
      rw [hn]
      simp only [Coordination.walk, henough, decide_false, counted_fetch]
      cases hfetch : answer.fetch with
      | ok set =>
        obtain ⟨called, hshortest, hgot, hleft⟩ :=
          ih (reads + 1) (held.merge set).versions (t.afterFetch (e, answer)) hlength'
        have hwanted : quorum - (reads + 1) = n := by omega
        refine ⟨(e, answer) :: called, .cons ?_, ?_, ?_⟩
        · rw [hfetch]
          exact hwanted ▸ hshortest
        · rw [List.filterMap_cons, hfetch]
          exact hgot
        · rw [← afterFetches_afterFetch]
          exact hleft
      | error failure =>
        obtain ⟨called, hshortest, hgot, hleft⟩ :=
          ih reads held (t.afterFetch (e, answer)) hlength'
        refine ⟨(e, answer) :: called, .cons ?_, ?_, ?_⟩
        · rw [hfetch]
          exact hn ▸ hshortest
        · rw [List.filterMap_cons, hfetch]
          exact hgot
        · rw [← afterFetches_afterFetch]
          exact hleft

/-- What a read at a replica in service comes to. -/
lemma act_get (key : String) {t : Timed} {answers : List Answer}
    (hup : t.replica.outage.down = false) (hlength : answers.length = t.replica.peers.length) :
    ∃ called, IsShortest (fun call => call.2.fetch.isOk) (t.replica.quorum.read - 1)
        (t.replica.peers.zip answers) called ∧
      let found := (t.replica.store.versions key).mergeAll
        (called.filterMap fun call => call.2.fetch.toOption)
      t.act (.request (.get key) answers) =
        (some (if found.isEmpty then .error (.notFound key) else .ok (.get found)),
          t.afterFetches called) := by
  obtain ⟨called, hshortest, hgot, hleft⟩ := walk_fetch key t.replica.quorum.read 1
    (t.replica.store.versions key) t hlength
  have havailable := Outage.available_of_up hup
  have hself : Serving.surroundings.self ⟨t, answers⟩ = t.replica := rfl
  refine ⟨called, hshortest, ?_⟩
  simp only [act, Coordination.perform, Coordination.get, hself, havailable, hgot, hleft]
  split <;> rfl

end Timed

/-! ### Reading in a cluster -/

namespace Cluster

variable {c : Cluster} {i : ℕ} {key : String}

/-- What is heard of a call that asks a peer for its versions of a key. -/
def fetched (c : Cluster) (key : String) (call : Endpoint × Fate) : Except CallError Siblings :=
  (Fated.exchange call.1 (serveFetch key) ⟨c, [call.2]⟩).1

/-- That a replica has counted a failure changes nothing about what is heard. -/
lemma fetched_modify (c : Cluster) (i : ℕ) (method : Method) (e : CallError) (key : String) :
    (c.modify i (·.countFailure method e)).fetched key = c.fetched key := by
  funext ⟨peer, fate⟩
  cases fate with
  | lost e => rfl
  | unheard e => rfl
  | heard =>
    change ((c.modify i _).deliver peer (serveFetch key)).1 = (c.deliver peer (serveFetch key)).1
    have hanswers : (c.modify i (·.countFailure method e)).whoAnswers? peer = c.whoAnswers? peer :=
      rfl
    rw [deliver, deliver, hanswers]
    cases c.whoAnswers? peer with
    | none => rfl
    | some j =>
      simp only [modify, List.getElem?_modify]
      cases c.replicas[j]? with
      | none => rfl
      | some q =>
        by_cases hij : i = j
        · simp [hij, serveFetch, Replica.fetch_eq, Replica.countFailure]
        · simp [hij]

/-- A read that a peer is asked for leaves the cluster as it is, apart from a failure that the
caller counts. -/
lemma counted_fetch (c : Cluster) (i : ℕ) (r : Replica) (key : String) (e : Endpoint)
    (fate : Fate) (fates : List Fate) :
    Coordination.counted (Fated.surroundings i r) .fetch
        (fun p => (Fated.surroundings i r).fetch p key) e ⟨c, fate :: fates⟩
      = (c.fetched key (e, fate), ⟨match c.fetched key (e, fate) with
          | .ok _ => c
          | .error failure => c.modify i (·.countFailure .fetch failure), fates⟩) := by
  have hexchange : Fated.exchange e (serveFetch key) ⟨c, fate :: fates⟩
      = (c.fetched key (e, fate), ⟨c, fates⟩) := by
    cases fate with
    | lost failure => rfl
    | unheard failure =>
      exact Prod.ext rfl (congrArg (Fated.mk · fates) (c.deliver_serveFetch e key))
    | heard => exact Prod.ext rfl (congrArg (Fated.mk · fates) (c.deliver_serveFetch e key))
  have hfetch : (Fated.surroundings i r).fetch e key ⟨c, fate :: fates⟩
      = (c.fetched key (e, fate), ⟨c, fates⟩) := hexchange
  rw [Coordination.counted, hfetch]
  cases c.fetched key (e, fate) <;> rfl

/-- **Reading in a cluster.**  A replica that reads in a cluster gets what it gets from peers
that answer with what is heard in the cluster, and nothing changes there but what it has
counted. -/
lemma walk_fetch {i : ℕ} {r : Replica} {key : String} {β : Type} (enough : β → Bool)
    (add : β → Siblings → β) (b : β) {c : Cluster} {t : Timed} {peers : List Endpoint}
    {fates : List Fate} {answers : List Answer} (hr : c.replicas[i]? = some t.replica)
    (hlength : answers.length = peers.length)
    (hanswers : answers.map Answer.fetch = (peers.zip fates).map (c.fetched key)) :
    let walked := Coordination.walk (Coordination.counted Timed.Serving.surroundings .fetch
      fun p => Timed.Serving.surroundings.fetch p key) enough add peers b ⟨t, answers⟩
    let walked' := Coordination.walk (Coordination.counted (Fated.surroundings i r) .fetch
      fun p => (Fated.surroundings i r).fetch p key) enough add peers b ⟨c, fates⟩
    walked'.1 = walked.1 ∧ walked'.2.cluster = c.modify i fun _ => walked.2.timed.replica := by
  induction peers generalizing b c t fates answers with
  | nil => exact ⟨rfl, (modify_of_getElem? hr).symm⟩
  | cons e rest ih =>
    obtain _ | ⟨answer, answers⟩ := answers
    · cases hlength
    obtain _ | ⟨fate, fates⟩ := fates
    · cases hanswers
    obtain ⟨hfetch, hanswers'⟩ := List.cons.inj hanswers
    have hlength' : answers.length = rest.length := Nat.succ.inj hlength
    by_cases henough : enough b = true
    · simp only [Coordination.walk, if_pos henough]
      exact ⟨trivial, (modify_of_getElem? hr).symm⟩
    · have hreplica : (t.afterFetch (e, answer)).replica
          = t.replica.afterCall .fetch (Coordination.failure? (c.fetched key (e, fate))) := by
        rw [← hfetch]
        rfl
      simp only [Coordination.walk, if_neg henough, Timed.counted_fetch, counted_fetch, hfetch]
      cases hheard : c.fetched key (e, fate) with
      | ok set =>
        rw [hheard] at hreplica
        exact ih (add b set) (hr.trans (congrArg some hreplica.symm)) hlength' hanswers'
      | error failure =>
        rw [hheard] at hreplica
        have hcounted : (c.modify i (·.countFailure .fetch failure)).replicas[i]?
            = some (t.afterFetch (e, answer)).replica := by
          rw [hreplica]
          exact getElem?_modify_self hr
        rw [← fetched_modify c i .fetch failure key] at hanswers'
        obtain ⟨hgot, hleft⟩ := ih b hcounted hlength' hanswers'
        refine ⟨hgot, hleft.trans ?_⟩
        simp [modify, List.modify_modify_eq, Function.comp_def]

/-- A read that a replica in service serves in a cluster. -/
lemma act_get {c : Cluster} {i : ℕ} {key : String} {t : Timed} {fates : List Fate}
    {answers : List Answer} (hup : t.replica.outage.down = false)
    (hr : c.replicas[i]? = some t.replica) (hlength : answers.length = t.replica.peers.length)
    (hanswers : answers.map Answer.fetch = (t.replica.peers.zip fates).map (c.fetched key)) :
    c.act (.request i (.get key) fates)
      = ((t.act (.request (.get key) answers)).1,
        c.modify i fun _ => (t.act (.request (.get key) answers)).2.replica) := by
  have hself : (Fated.surroundings i t.replica).self ⟨c, fates⟩ = t.replica :=
    Fated.self_surroundings hr
  have hself' : Timed.Serving.surroundings.self ⟨t, answers⟩ = t.replica := rfl
  have havailable := Outage.available_of_up hup
  obtain ⟨hgot, hleft⟩ := walk_fetch (r := t.replica) (fun got => t.replica.quorum.read ≤ got.1)
    (fun got remote => (got.1 + 1, (got.2.merge remote).versions))
    (1, t.replica.store.versions key) hr hlength hanswers
  simp only [act, Timed.act, hr, Coordination.perform, Coordination.get, hself, hself',
    havailable, hgot, hleft]

end Cluster

namespace Timed

/-- **The read walk.**  A replica in service that reads a key asks the peers on its list,
leaving out itself, in order: the shortest beginning of these of which one less than the read
quorum answer with versions, or all if not so many do.  All that changes is that it counts each
call that fails, and one that brings no version is one of these.  It finds nothing if and only
if neither itself nor those that answered hold anything.  Else, as all that they hold are
antichains, it returns one, whose clocks are the maximal ones of all and each of whose versions
comes from the earliest set with its clock.  In a cluster the answers are what the peers hold, and
nothing changes there but what the reading replica has counted. -/
theorem get_of_answers {t : Timed} {answers : List Answer} {key : String}
    (hup : t.replica.outage.down = false) (hlength : answers.length = t.replica.peers.length)
    (hheld : (t.replica.store.versions key).Antichain)
    (hanswers : ∀ answer ∈ answers, ∀ s, answer.fetch = .ok s → s.Antichain) :
    let r := t.replica
    let calls := (r.list.filter (· ≠ r.endpoint)).zip answers
    let event := Event.request (.get key) answers
    (∃ called : List (Endpoint × Answer),
      IsShortest (fun call => call.2.fetch.isOk) (max r.quorum.read 1 - 1) calls called ∧
      let sets := r.store.versions key :: called.filterMap fun call => call.2.fetch.toOption
      (t.act event).2 = { t with
        replica := r.countFailures .fetch
          (called.filterMap fun call => Coordination.failure? call.2.fetch)
        calls := (called.map fun call => (Method.fetch, call.1)).reverse ++ t.calls } ∧
      ((t.act event).1 = some (.error (.notFound key)) ↔ ∀ s ∈ sets, s = []) ∧
      ((∃ s ∈ sets, s ≠ []) → ∃ found, (t.act event).1 = some (.ok (.get found)) ∧
        found.Antichain ∧
        (∀ clock, clock ∈ found.clocks ↔ Maximal (fun c => ∃ s ∈ sets, c ∈ s.clocks) clock) ∧
        ∀ v ∈ found, ∃ before s after, sets = before ++ s :: after ∧ v ∈ s ∧
          ∀ earlier ∈ before, v.clock ∉ earlier.clocks)) ∧
    ∀ (c : Cluster) (i : ℕ) (fates : List Fate), c.replicas[i]? = some r →
      answers.map Answer.fetch = (r.peers.zip fates).map (c.fetched key) →
      c.act (.request i (.get key) fates)
        = ((t.act event).1, c.modify i fun _ => (t.act event).2.replica) := by
  intro r calls event
  refine ⟨?_, fun c i fates hr hheard => ?_⟩
  · obtain ⟨called, hshortest, hact⟩ := act_get key hup hlength
    have hquorum : r.quorum.read - 1 = max r.quorum.read 1 - 1 := by omega
    have hanswer : (t.act event).1 = some _ := congrArg Prod.fst hact
    let more := called.filterMap fun call => call.2.fetch.toOption
    have hmore : ∀ s ∈ more, s.Antichain := by
      intro s hs
      obtain ⟨⟨e, answer⟩, hcalled, hs⟩ := List.mem_filterMap.mp hs
      exact hanswers answer (List.of_mem_zip (hshortest.beginning.subset hcalled)).2 s
        (Except.eq_ok_of_toOption_eq_some hs)
    have hnone : ((r.store.versions key).mergeAll more).isEmpty = true ↔
        ∀ s ∈ r.store.versions key :: more, s = [] := by
      rw [List.isEmpty_iff, Siblings.mergeAll_eq_nil_iff]
    refine ⟨called, hquorum ▸ hshortest, congrArg Prod.snd hact, ?_, fun ⟨s, hs, hne⟩ => ?_⟩
    · rw [hanswer, ← hnone]
      simp [more, r]
    · have hsome : ¬ ((r.store.versions key).mergeAll more).isEmpty = true := fun hempty =>
        hne (hnone.mp hempty s hs)
      rw [hanswer, if_neg hsome]
      exact ⟨_, rfl, Siblings.antichain_mergeAll hheld hmore,
        fun clock => Siblings.mem_clocks_mergeAll_iff hheld hmore,
        fun v hv => Siblings.exists_earliest_of_mem_mergeAll hv⟩
  · exact Cluster.act_get hup hr hlength hheard

/-- Three replicas, of which the first and the third hold versions of a key, one of these with
the same clock on both.  The first one reads: the second answers that it has none, which is
counted, and the third one brings its other version. -/
theorem get_of_answers_shared :
    let first : Version := ⟨.ofPairs [("n1", 1)], [1]⟩
    let same : Version := ⟨.ofPairs [("n1", 1)], [2]⟩
    let third : Version := ⟨.ofPairs [("n3", 1)], [3]⟩
    let ring := [("n1", (⟨"localhost", 8000⟩ : Endpoint)), ("n2", ⟨"localhost", 8001⟩),
      ("n3", ⟨"localhost", 8002⟩)]
    let c := (Cluster.ofRing ring ⟨1, 2⟩ 500 true).run
      [.request 0 (.replicate "k" [first]) [], .request 2 (.replicate "k" [same, third]) []]
    ∃ r, c.replicas[0]? = some r ∧
      c.act (.request 0 (.get "k") [.heard, .heard]) =
        (some (.ok (.get [first, third])),
          c.modify 0 fun _ => r.countFailures .fetch [.remote .notFound]) ∧
      Siblings.Antichain [first, third] ∧
      (∀ clock, clock ∈ Siblings.clocks [first, third] ↔
        Maximal (fun c => ∃ s ∈ [[first], [same, third]], c ∈ Siblings.clocks s) clock) := by
  intro first same third ring c
  obtain ⟨r, hr, hup, hversions, hquorum, hpeers⟩ : ∃ r, c.replicas[0]? = some r ∧
      r.outage.down = false ∧ r.store.versions "k" = [first] ∧ r.quorum = ⟨1, 2⟩ ∧
      r.list.filter (· ≠ r.endpoint) = [⟨"localhost", 8001⟩, ⟨"localhost", 8002⟩] :=
    ⟨_, rfl, rfl, rfl, rfl, by decide +kernel⟩
  let t : Timed := ⟨r, 0, [], []⟩
  let none : Answer := ⟨.error .closed, .error (.remote .notFound), .error .closed⟩
  let two : Answer := ⟨.error .closed, .ok [same, third], .error .closed⟩
  have hlength : [none, two].length = t.replica.peers.length := by
    rw [Replica.peers, hpeers]
    rfl
  have hheld : (t.replica.store.versions "k").Antichain :=
    hversions ▸ Siblings.antichain_singleton first
  have hanswers : ∀ answer ∈ [none, two], ∀ s, answer.fetch = .ok s → s.Antichain := by
    intro answer hanswer s hs
    rcases List.mem_pair.mp hanswer with rfl | rfl
    · cases hs
    · cases hs
      decide +kernel
  obtain ⟨⟨called, hshortest, hleft, -, hfound⟩, hcluster⟩ :=
    get_of_answers hup hlength hheld hanswers
  change IsShortest _ (max r.quorum.read 1 - 1) ((r.list.filter (· ≠ r.endpoint)).zip _) _
    at hshortest
  rw [hpeers, hquorum] at hshortest
  obtain rfl : called = [(⟨"localhost", 8001⟩, none), (⟨"localhost", 8002⟩, two)] :=
    hshortest.unique (.cons (.cons (.of_zero _ _)))
  obtain ⟨found, hreturned, hconcurrent, hclocks, -⟩ :=
    hfound ⟨t.replica.store.versions "k", List.mem_cons_self, by rw [hversions]; exact nofun⟩
  have hact := hcluster c 0 [.heard, .heard] hr (by rw [Replica.peers, hpeers]; rfl)
  rw [hleft] at hact
  rw [hreturned] at hact
  have heval : (c.act (.request 0 (.get "k") [.heard, .heard])).1
      = some (.ok (.get [first, third])) := by decide +kernel
  have hsame : found = [first, third] := Coordination.Outcome.get.inj <|
    Except.ok.inj <| Option.some.inj <| (congrArg Prod.fst hact).symm.trans heval
  subst hsame
  change ∀ clock, _ ↔ Maximal (fun c => ∃ s ∈ r.store.versions "k" :: _, c ∈ s.clocks) clock
    at hclocks
  rw [hversions] at hclocks
  refine ⟨r, hr, ?_, ?_, ?_⟩
  · exact hact
  · exact hconcurrent
  · exact hclocks

end Timed

end QuorumStore
