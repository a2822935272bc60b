/-
What a write that a replica accepts comes to.  The replica sends what it holds of the key then
to one peer after the other, until enough of them have taken it or none is left.

* `IsShortest`: the shortest beginning of a list with so many members that pass a test;
* `Cluster.obstacle?`: why a call with a fate fails;
* `Traffic.run_put_calls`: which calls a write makes;
* `Cluster.getElem?_sendAll`: what these leave of each replica;
* `Traffic.put_of_fates`: so all that the write does follows from its preference list, its
  quorum and what becomes of the calls.
-/
import QuorumStore.Proofs.Deliveries
import QuorumStore.Proofs.Durability
import QuorumStore.Proofs.Joins

namespace QuorumStore

/-! ### Beginnings of lists -/

/-- The shortest beginning of a list in which so many members pass a test, or all of the list
if not so many do. -/
structure IsShortest {α : Type} (p : α → Bool) (n : ℕ) (all called : List α) : Prop where
  beginning : called <+: all
  enough : n ≤ called.countP p ∨ called = all
  least : ∀ shorter, shorter <+: called → shorter ≠ called → shorter.countP p < n

namespace IsShortest

variable {α : Type} {p : α → Bool} {n : ℕ} {a : α} {all called : List α}

/-- If none need pass, the list need not begin. -/
lemma of_zero (p : α → Bool) (all : List α) : IsShortest p 0 all [] where
  beginning := List.nil_prefix
  enough := .inl (Nat.zero_le _)
  least _ hshorter hne := absurd (List.prefix_nil.mp hshorter) hne

lemma nil (p : α → Bool) (n : ℕ) : IsShortest p n [] [] where
  beginning := List.nil_prefix
  enough := .inr rfl
  least _ hshorter hne := absurd (List.prefix_nil.mp hshorter) hne

/-- The first member counts if it passes; in any case the beginning goes on with the rest. -/
lemma cons (h : IsShortest p (if p a then n else n + 1) all called) :
    IsShortest p (n + 1) (a :: all) (a :: called) where
  beginning := (List.prefix_cons_inj a).mpr h.beginning
  enough := by
    rw [List.countP_cons]
    rcases h.enough with henough | rfl
    · left
      split at henough <;> simp_all
    · exact .inr rfl
  least shorter hshorter hne := by
    cases shorter with
    | nil => exact Nat.succ_pos n
    | cons b rest =>
      obtain ⟨rfl, hrest⟩ := List.cons_prefix_cons.mp hshorter
      have hfewer := h.least rest hrest fun heq => hne (heq ▸ rfl)
      rw [List.countP_cons]
      split at hfewer <;> simp_all

/-- There is only one such beginning. -/
lemma unique {called' : List α} (h : IsShortest p n all called)
    (h' : IsShortest p n all called') : called = called' := by
  -- of two beginnings of a list one begins the other
  have hle : ∀ {shorter longer : List α}, IsShortest p n all shorter →
      IsShortest p n all longer → shorter <+: longer → shorter = longer := by
    intro shorter longer hshorter hlonger hbegins
    by_contra hne
    rcases hshorter.enough with henough | rfl
    · exact absurd (hlonger.least shorter hbegins hne) henough.not_gt
    · exact hne (hbegins.eq_of_length_le hlonger.beginning.length_le)
  rcases List.prefix_or_prefix_of_prefix h.beginning h'.beginning with hbegins | hbegins
  · exact hle h h' hbegins
  · exact (hle h' h hbegins).symm

/-- As many pass as need to, or as there are. -/
lemma countP_eq (h : IsShortest p n all called) : called.countP p = min n (all.countP p) := by
  have hsub : called.countP p ≤ all.countP p := h.beginning.sublist.countP_le
  -- without its last member the beginning has too few that pass
  have hle : called.countP p ≤ n := by
    rcases called.eq_nil_or_concat' with rfl | ⟨shorter, a, rfl⟩
    · exact Nat.zero_le n
    · have hfewer := h.least shorter (List.prefix_append shorter [a]) (by simp)
      rw [List.countP_append, List.countP_singleton]
      split <;> omega
  rcases h.enough with henough | rfl
  · omega
  · omega

end IsShortest

/-! ### Calls -/

/-- Counts some calls of its own that failed, one after the other. -/
def Replica.countFailures (method : Method) (failures : List CallError) (r : Replica) : Replica :=
  { r with tally := { r.tally with
    failed := (failures.map fun e => (method, e.code)).reverse ++ r.tally.failed } }

namespace Replica

variable {r : Replica} {key : String} {versions : Siblings}

lemma countFailures_cons (method : Method) (e : CallError) (failures : List CallError)
    (r : Replica) :
    r.countFailures method (e :: failures)
      = (r.countFailure method e).countFailures method failures := by
  simp [countFailures, countFailure]

/-- A call of its own and then others, counted together. -/
lemma countFailures_afterCall {α : Type} (method : Method) (failure : α → Option CallError)
    (a : α) (rest : List α) (r : Replica) :
    (r.afterCall method (failure a)).countFailures method (rest.filterMap failure)
      = r.countFailures method ((a :: rest).filterMap failure) := by
  cases hfailure : failure a with
  | none =>
    rw [List.filterMap_cons_none hfailure]
    rfl
  | some e =>
    rw [List.filterMap_cons_some hfailure, countFailures_cons]
    rfl

/-- Versions that a replica knows of leave it as it is. -/
lemma replicate_of_knows (h : ∀ v ∈ versions, r.store.Knows key v.clock) :
    (r.replicate key versions).2 = r := by
  rw [replicate_eq]
  split
  · rfl
  · simp only [(Store.absorb_of_knows h).2]

/-- A replica that is given versions again stays as it is. -/
lemma replicate_replicate (r : Replica) (key : String) (versions : Siblings) :
    ((r.replicate key versions).2.replicate key versions).2 = (r.replicate key versions).2 := by
  by_cases hdown : r.outage.down = true
  · have hsame : (r.replicate key versions).2 = r := by rw [replicate_eq, if_pos hdown]
    rw [hsame, hsame]
  · refine replicate_of_knows fun v hv => ?_
    rw [replicate_eq, if_neg hdown]
    exact Store.knows_absorb_of_mem hv

lemma outage_replicate (r : Replica) (key : String) (versions : Siblings) :
    (r.replicate key versions).2.outage = r.outage := by
  rw [replicate_eq]
  split <;> rfl

lemma outage_afterCall (method : Method) (failure : Option CallError) (r : Replica) :
    (r.afterCall method failure).outage = r.outage := by
  cases failure <;> rfl

end Replica

namespace Cluster

variable {c c' : Cluster} {i j : ℕ} {key : String} {versions : Siblings} {r : Replica}

/-- Why a call to a peer fails, if it does: what became of it, or that nobody in service
answers at the endpoint.  What the peer holds does not matter. -/
def obstacle? (c : Cluster) (peer : Endpoint) : Fate → Option CallError
  | .lost e => some e
  | .unheard e => some e
  | .heard =>
    match (c.whoAnswers? peer).bind fun j => c.replicas[j]? with
    | none => some (.unreachable peer.text .noSuchNode)
    | some q => if q.outage.down then some (.remote .crashed) else none

/-- A call to a peer succeeds. -/
def accepts (c : Cluster) (call : Endpoint × Fate) : Bool :=
  (c.obstacle? call.1 call.2).isNone

/-- What a call leaves of a cluster by which a replica sends versions of a key to a peer. -/
def send (c : Cluster) (i : ℕ) (key : String) (versions : Siblings) (call : Endpoint × Fate) :
    Cluster :=
  (Coordination.counted (Fated.surroundings i default) .replicate
    (fun p => Fated.exchange p (·.replicate key versions)) call.1 ⟨c, [call.2]⟩).2.cluster

/-- What calls leave that are made one after the other. -/
def sendAll (c : Cluster) (i : ℕ) (key : String) (versions : Siblings)
    (calls : List (Endpoint × Fate)) : Cluster :=
  calls.foldl (fun c call => c.send i key versions call) c

/-- A delivery fails if nobody in service answers, and not for what the peer holds. -/
lemma failure?_deliver (c : Cluster) (peer : Endpoint) (key : String) (versions : Siblings) :
    Coordination.failure? (c.deliver peer (·.replicate key versions)).1
      = c.obstacle? peer .heard := by
  simp only [deliver, obstacle?]
  cases c.whoAnswers? peer with
  | none => rfl
  | some j =>
    simp only [Option.bind_some]
    cases c.replicas[j]? with
    | none => rfl
    | some q =>
      simp only [Replica.replicate_eq]
      split <;> rfl

/-- A call fails for the reason for which it has to. -/
lemma failure?_counted (i : ℕ) (c : Cluster) (key : String) (versions : Siblings)
    (peer : Endpoint) (fate : Fate) :
    Coordination.failure? (Coordination.counted (Fated.surroundings i default) .replicate
      (fun p => Fated.exchange p (·.replicate key versions)) peer ⟨c, [fate]⟩).1
        = c.obstacle? peer fate := by
  cases fate with
  | lost e => rfl
  | unheard e => rfl
  | heard =>
    rw [← failure?_deliver c peer key versions]
    simp only [Coordination.counted, Fated.exchange, List.headD_cons]
    cases (c.deliver peer (·.replicate key versions)).1 <;> rfl

/-- What becomes of calls depends on who answers where and is in service. -/
lemma obstacle?_congr (hdirectory : c'.directory = c.directory)
    (houtage : ∀ j : ℕ, c'.replicas[j]?.map Replica.outage = c.replicas[j]?.map Replica.outage) :
    c'.obstacle? = c.obstacle? := by
  funext peer fate
  cases fate with
  | lost e => rfl
  | unheard e => rfl
  | heard =>
    simp only [obstacle?, whoAnswers?, hdirectory]
    cases (c.directory.find? fun p => decide (p.1 = peer)).map Prod.snd with
    | none => rfl
    | some j =>
      have hj := houtage j
      simp only [Option.bind_some]
      revert hj
      cases c'.replicas[j]? <;> cases c.replicas[j]? <;> simp +contextual

/-- That a replica stores something changes nothing about what becomes of calls. -/
lemma obstacle?_modify {r' : Replica} (hr : c.replicas[i]? = some r)
    (houtage : r'.outage = r.outage) : (c.modify i fun _ => r').obstacle? = c.obstacle? := by
  refine obstacle?_congr rfl fun j => ?_
  by_cases hij : i = j
  · subst hij
    simp [modify, hr, houtage]
  · simp [modify, hij]

lemma accepts_congr (h : c'.obstacle? = c.obstacle?) : c'.accepts = c.accepts := by
  funext call
  rw [accepts, h, accepts]

lemma directory_deliver {α : Type} (c : Cluster) (e : Endpoint)
    (serve : Replica → Except Refusal α × Replica) :
    (c.deliver e serve).2.directory = c.directory := by
  rw [deliver]
  split
  · rfl
  · split <;> rfl

/-! ### What calls leave -/

/-- Of a call the replica at the endpoint gets what it is sent, and the sender counts a
failure. -/
lemma getElem?_send (c : Cluster) (i : ℕ) (key : String) (versions : Siblings)
    (call : Endpoint × Fate) (j : ℕ) :
    (c.send i key versions call).replicas[j]? =
      (if call.2.Served ∧ c.whoAnswers? call.1 = some j
        then c.replicas[j]?.map fun q => (q.replicate key versions).2
        else c.replicas[j]?).map fun q =>
          if i = j then q.afterCall .replicate (c.obstacle? call.1 call.2) else q := by
  rw [← failure?_counted i c key versions call.1 call.2, send,
    Fated.getElem?_counted_exchange]

lemma directory_send (c : Cluster) (i : ℕ) (key : String) (versions : Siblings)
    (call : Endpoint × Fate) : (c.send i key versions call).directory = c.directory := by
  rw [send, Fated.cluster_counted_exchange, modify]
  split
  · exact directory_deliver c call.1 _
  · rfl

/-- A call changes nothing about what becomes of others. -/
lemma obstacle?_send (c : Cluster) (i : ℕ) (key : String) (versions : Siblings)
    (call : Endpoint × Fate) : (c.send i key versions call).obstacle? = c.obstacle? := by
  refine obstacle?_congr (c.directory_send i key versions call) fun j => ?_
  rw [getElem?_send]
  cases c.replicas[j]? with
  | none => simp
  | some q =>
    have houtage : ∀ q' : Replica, q'.outage = q.outage →
        (if i = j then q'.afterCall .replicate (c.obstacle? call.1 call.2) else q').outage
          = q.outage := by
      intro q' hq'
      split
      · rw [Replica.outage_afterCall, hq']
      · exact hq'
    by_cases hserved : call.2.Served ∧ c.whoAnswers? call.1 = some j
    · rw [if_pos hserved]
      exact congrArg some (houtage _ (q.outage_replicate key versions))
    · rw [if_neg hserved]
      exact congrArg some (houtage q rfl)

lemma accepts_send (c : Cluster) (i : ℕ) (key : String) (versions : Siblings)
    (call : Endpoint × Fate) : (c.send i key versions call).accepts = c.accepts :=
  accepts_congr (c.obstacle?_send i key versions call)

lemma whoAnswers?_send (c : Cluster) (i : ℕ) (key : String) (versions : Siblings)
    (call : Endpoint × Fate) : (c.send i key versions call).whoAnswers? = c.whoAnswers? := by
  funext e
  rw [whoAnswers?, directory_send, whoAnswers?]

variable {calls : List (Endpoint × Fate)}

lemma directory_sendAll : (c.sendAll i key versions calls).directory = c.directory := by
  induction calls generalizing c with
  | nil => rfl
  | cons call rest ih => exact ih.trans (c.directory_send i key versions call)

/-- Another replica than the sender has what is sent if one of the calls to it is served, and
else is as it was. -/
lemma getElem?_sendAll (hj : i ≠ j) :
    (c.sendAll i key versions calls).replicas[j]? =
      if ∃ call ∈ calls, call.2.Served ∧ c.whoAnswers? call.1 = some j
      then c.replicas[j]?.map fun q => (q.replicate key versions).2 else c.replicas[j]? := by
  induction calls generalizing c with
  | nil => simp [sendAll]
  | cons call rest ih =>
    change ((c.send i key versions call).sendAll i key versions rest).replicas[j]? = _
    have hsend : (c.send i key versions call).replicas[j]? = _ :=
      c.getElem?_send i key versions call j
    simp only [if_neg hj, Option.map_id'] at hsend
    rw [ih, whoAnswers?_send, hsend]
    simp only [List.exists_mem_cons_iff]
    by_cases hfirst : call.2.Served ∧ c.whoAnswers? call.1 = some j
    · simp only [hfirst, and_self, true_or, if_true, Option.map_map, Function.comp_def,
        Replica.replicate_replicate, ite_self]
    · simp only [hfirst, false_or, if_false]

/-- The sender knows of what it sends, so all that it does is to count the calls that fail. -/
lemma getElem?_sendAll_self (hr : c.replicas[i]? = some r)
    (hknows : ∀ v ∈ versions, r.store.Knows key v.clock) :
    (c.sendAll i key versions calls).replicas[i]? = some (r.countFailures .replicate
      (calls.filterMap fun call => c.obstacle? call.1 call.2)) := by
  induction calls generalizing c r with
  | nil => exact hr
  | cons call rest ih =>
    change ((c.send i key versions call).sendAll i key versions rest).replicas[i]? = _
    have hsend : (c.send i key versions call).replicas[i]?
        = some (r.afterCall .replicate (c.obstacle? call.1 call.2)) := by
      rw [getElem?_send, hr]
      simp only [Option.map_some, Replica.replicate_of_knows hknows, ite_self, if_true]
    have hstore : (r.afterCall .replicate (c.obstacle? call.1 call.2)).store = r.store := by
      cases c.obstacle? call.1 call.2 <;> rfl
    rw [ih hsend (hstore ▸ hknows), obstacle?_send]
    exact congrArg some
      (Replica.countFailures_afterCall .replicate (fun p => c.obstacle? p.1 p.2) call rest r)

end Cluster

/-! ### Operations -/

namespace Traffic

variable {s : Traffic} {k i : ℕ} {quorum : Quorum} {write : Write} {merged : Siblings} {acks : ℕ}
variable {peer : Endpoint} {peers rest : List Endpoint}
variable {heard : List (Endpoint × Option CallError)} {fate : Fate} {fates : List Fate}

lemma run_cons (s : Traffic) (m : Move) (moves : List Move) :
    s.run (m :: moves) = (s.after m).run moves := rfl

/-- A call of a write that wants more confirmations sends what is replicated to the next peer,
and counts its confirmation. -/
lemma call_put_eq
    (ho : s.operations[k]? = some ⟨i, quorum, .put write merged acks, peer :: rest, heard⟩)
    (hwants : acks < quorum.write) (fate : Fate) :
    ∃ heard', s.call k fate = ⟨s.cluster.send i write.key merged (peer, fate),
      s.operations.set k ⟨i, quorum, .put write merged
        (if s.cluster.accepts (peer, fate) then acks + 1 else acks), rest, heard'⟩,
      s.letters ++ [.replicate peer write.key merged]⟩ := by
  have hgoes : (Errand.put write merged acks).enough quorum = false := by
    simpa [Errand.enough] using hwants
  have hfailure := Cluster.failure?_counted i s.cluster write.key merged peer fate
  have hcall : s.call k fate =
      let call := Coordination.counted (Fated.surroundings i default) .replicate
        (fun p => Fated.exchange p (·.replicate write.key merged)) peer ⟨s.cluster, [fate]⟩
      ⟨call.2.cluster, s.operations.set k
        (Operation.note ⟨i, quorum, .put write merged acks, peer :: rest, heard⟩ peer rest fate
          (call.1.map fun _ => .put write merged (acks + 1))),
        s.letters ++ [.replicate peer write.key merged]⟩ := call_eq ho hgoes rfl fate
  rw [Cluster.accepts, ← hfailure, Cluster.send]
  generalize Coordination.counted (Fated.surroundings i default) .replicate
    (fun p => Fated.exchange p (·.replicate write.key merged)) peer ⟨s.cluster, [fate]⟩ = call
    at hcall
  obtain ⟨answer, f⟩ := call
  cases answer with
  | ok stored => exact ⟨_, hcall⟩
  | error e => exact ⟨_, hcall⟩

/-- **The calls of a write.**  A write turns to the shortest beginning of its peers of which
as many take what it sends as it still wants, and to all if there are not so many. -/
lemma run_put_calls
    (ho : s.operations[k]? = some ⟨i, quorum, .put write merged acks, peers, heard⟩)
    (hlength : fates.length = peers.length) :
    let t := s.run (fates.map (.call k))
    ∃ called, IsShortest s.cluster.accepts (quorum.write - acks) (peers.zip fates) called ∧
      t.cluster = s.cluster.sendAll i write.key merged called ∧
      t.letters = s.letters ++ called.map (fun p => .replicate p.1 write.key merged) ∧
      ∃ rest heard, t.operations = s.operations.set k
        ⟨i, quorum, .put write merged (acks + called.countP s.cluster.accepts), rest, heard⟩ := by
  induction peers generalizing s acks heard fates with
  | nil =>
    refine ⟨[], .nil _ _, ?_, ?_, [], heard, ?_⟩
    all_goals rw [run_calls_of_ended ho (.inr rfl)]
    · rfl
    · simp
    · simp [set_of_getElem? ho]
  | cons peer rest ih =>
    obtain _ | ⟨fate, fates⟩ := fates
    · cases hlength
    by_cases hwants : acks < quorum.write
    · obtain ⟨heard', hcall⟩ := call_put_eq ho hwants fate
      have hlt := (List.getElem?_eq_some_iff.mp ho).1
      generalize hacks : (if s.cluster.accepts (peer, fate) then acks + 1 else acks) = acks'
        at hcall
      have ho' : (s.call k fate).operations[k]?
          = some ⟨i, quorum, .put write merged acks', rest, heard'⟩ := by
        rw [hcall]
        exact List.getElem?_set_self hlt
      obtain ⟨called, hshortest, hcluster, hletters, rest', heard'', hoperations⟩ :=
        ih ho' (Nat.succ.inj hlength)
      simp only [hcall, Cluster.accepts_send] at hshortest hcluster hletters hoperations
      refine ⟨(peer, fate) :: called, ?_, ?_, ?_, rest', heard'', ?_⟩
      · obtain ⟨n, hn⟩ : ∃ n, quorum.write - acks = n + 1 := ⟨quorum.write - acks - 1, by omega⟩
        have hleft : quorum.write - acks'
            = if s.cluster.accepts (peer, fate) then n else n + 1 := by
          rw [← hacks]
          split <;> omega
        rw [hn]
        exact .cons (hleft ▸ hshortest)
      · rw [List.map_cons, run_cons, after, hcall]
        exact hcluster
      · rw [List.map_cons, run_cons, after, hcall, hletters]
        simp
      · have hcount : acks' + called.countP s.cluster.accepts
            = acks + ((peer, fate) :: called).countP s.cluster.accepts := by
          rw [← hacks, List.countP_cons]
          split <;> omega
        rw [List.map_cons, run_cons, after, hcall, hoperations, List.set_set, hcount]
    · have hended : (Errand.put write merged acks).enough quorum = true := by
        simpa [Errand.enough] using hwants
      have hnone : quorum.write - acks = 0 := by omega
      rw [hnone]
      refine ⟨[], .of_zero _ _, ?_, ?_, peer :: rest, heard, ?_⟩
      all_goals rw [run_calls_of_ended ho (.inl hended)]
      · rfl
      · simp
      · simp [set_of_getElem? ho]

/-- An operation that has not begun makes no calls. -/
lemma run_calls_of_none (h : s.operations[k]? = none) (fates : List Fate) :
    s.run (fates.map (.call k)) = s := by
  induction fates with
  | nil => rfl
  | cons fate fates ih =>
    rw [List.map_cons, run_cons, after, call, h]
    exact ih

/-- A write that the serving replica refuses is over at once. -/
lemma run_put_of_error {r : Replica} {key : String} {context : Clock} {value : Bytes}
    {e : Refusal} (hr : s.cluster.replicas[i]? = some r)
    (hwrite : r.write key context value = .error e) (fates : List Fate) :
    s.cluster.act (.request i (.put key context value) fates)
        = (some (.error e), s.cluster) ∧
      (s.after (.request i (.put key context value))).run (fates.map (.call s.operations.length))
        = s := by
  have hact : s.cluster.act (.request i (.put key context value) fates)
      = (some (.error e), s.cluster) := by
    have hself : (Fated.surroundings i r).self ⟨s.cluster, fates⟩ = r :=
      Fated.self_surroundings hr
    simp only [Cluster.act, hr, Coordination.perform, Coordination.put, hself, hwrite]
    rfl
  have hbegin : ∀ q, s.cluster.replicas[i]? = some q →
      q.begin i (.put key context value) = none := by
    intro q hq
    cases hr.symm.trans hq
    rw [Replica.begin, hwrite]
  have hask : s.after (.request i (.put key context value)) = s := by
    change s.ask i _ = s
    rw [ask_eq_act hbegin fates, hact]
  refine ⟨hact, ?_⟩
  rw [hask]
  exact run_calls_of_none (List.getElem?_eq_none le_rfl) fates

/-- A write that the serving replica accepts replicates what this holds then. -/
lemma run_put_of_ok {r r' : Replica} {key : String} {context : Clock} {value : Bytes}
    (hr : s.cluster.replicas[i]? = some r)
    (hwrite : r.write key context value = .ok (merged, r'))
    (hlength : fates.length = r.peers.length) :
    let written := s.cluster.modify i fun _ => r'
    let t := (s.after (.request i (.put key context value))).run
      (fates.map (.call s.operations.length))
    ∃ called, IsShortest written.accepts (r.quorum.write - 1) (r.peers.zip fates) called ∧
      t.cluster = written.sendAll i key merged called ∧
      t.letters = s.letters ++ called.map (fun p => .replicate p.1 key merged) ∧
      s.cluster.act (.request i (.put key context value) fates)
        = (some (.ok (.put ⟨1 + called.countP written.accepts, r.quorum.write⟩)), t.cluster) := by
  intro written t
  have hbegin : r.begin i (.put key context value)
      = some (⟨i, r.quorum, .put ⟨i, r.id, key, context, value⟩ merged 1, r.peers, []⟩, r') := by
    rw [Replica.begin, hwrite]
  have hafter : s.after (.request i (.put key context value)) = ⟨written, s.operations
      ++ [⟨i, r.quorum, .put ⟨i, r.id, key, context, value⟩ merged 1, r.peers, []⟩],
      s.letters⟩ := by
    change s.ask i _ = _
    simp [ask, hr, hbegin, written]
  have ho : (s.after (.request i (.put key context value))).operations[s.operations.length]?
      = some ⟨i, r.quorum, .put ⟨i, r.id, key, context, value⟩ merged 1, r.peers, []⟩ := by
    rw [hafter]
    exact List.getElem?_concat_length
  obtain ⟨called, hshortest, hcluster, hletters, rest, heard, hoperations⟩ :=
    run_put_calls ho hlength
  obtain ⟨o, ho', hended⟩ := reply_of_run_calls ho hlength.ge
  obtain ⟨hact, o', hoperations', hreply⟩ := serve_eq_act hr hbegin hlength.ge
  have hsame : o' = o := by
    have ho'' : (s.operations ++ [o'])[s.operations.length]? = some o :=
      (congrArg (·[s.operations.length]?) hoperations').symm.trans ho'
    rwa [List.getElem?_concat_length, Option.some.injEq] at ho''
  have herrand : o = ⟨i, r.quorum, .put ⟨i, r.id, key, context, value⟩ merged
      (1 + called.countP written.accepts), rest, heard⟩ := by
    have hlt := (List.getElem?_eq_some_iff.mp ho).1
    rw [hoperations, List.getElem?_set_self hlt, Option.some.injEq] at ho'
    rw [← ho', hafter]
  obtain ⟨answer, hanswer⟩ := Option.isSome_iff_exists.mp hended
  have houtcome := Operation.eq_outcome_of_reply hanswer
  rw [hafter] at hshortest hcluster hletters
  refine ⟨called, hshortest, ?_, ?_, Prod.ext ?_ hact.symm⟩
  · rw [← hcluster, ← hafter]
  · rw [← hletters, ← hafter]
  · rw [← hreply, hsame, hanswer, houtcome, herrand]
    rfl

/-- **The write walk.**  A replica in service refuses a write as stale if and only if the clock
that it would be signed with is equal to or before that of a version that it holds; then no
message is sent and nothing changes.  Otherwise it sends the merge of what it holds and the
new version to the peers on its list, leaving out itself, in order: to the shortest beginning
of these of which one less than the write quorum accept, or to all if not so many do.  The
receipt counts itself and all of the peers on the list that would accept, up to the quorum.
The replica counts each call that fails.  Another replica has merged what is sent if one of
the calls that are made is served by it, and else is as it was. -/
theorem put_of_fates {r : Replica} (hr : s.cluster.replicas[i]? = some r)
    (hup : r.outage.down = false) (hlength : fates.length = r.peers.length) (key : String)
    (context : Clock) (value : Bytes) :
    let new : Version := ⟨context.increment r.id, value⟩
    let merged := ((r.store.versions key).merge [new]).versions
    let stale := ∃ v ∈ r.store.versions key,
      new.clock = v.clock ∨ new.clock.before v.clock = true
    let written : Replica := { r with store := r.store.insert key merged }
    let calls := (r.list.filter (· ≠ r.endpoint)).zip fates
    let event := Cluster.Event.request i (.put key context value) fates
    let t := (s.after (.request i (.put key context value))).run
      (fates.map (.call s.operations.length))
    ((s.cluster.act event).1 = some (.error .stale) ↔ stale) ∧
    (stale → (s.cluster.act event).2 = s.cluster ∧ t = s) ∧
    (¬ stale → ∃ called : List (Endpoint × Fate),
      IsShortest s.cluster.accepts (max r.quorum.write 1 - 1) calls called ∧
      s.cluster.act event = (some (.ok (.put ⟨min (max r.quorum.write 1)
        (1 + calls.countP s.cluster.accepts), r.quorum.write⟩)), t.cluster) ∧
      t.letters = s.letters ++ called.map (fun call => .replicate call.1 key merged) ∧
      t.cluster.directory = s.cluster.directory ∧
      t.cluster.replicas[i]? = some (written.countFailures .replicate
        (called.filterMap fun call => s.cluster.obstacle? call.1 call.2)) ∧
      ∀ j, i ≠ j → t.cluster.replicas[j]? =
        if ∃ call ∈ called, call.2.Served ∧ s.cluster.whoAnswers? call.1 = some j
        then s.cluster.replicas[j]?.map fun q => (q.replicate key merged).2
        else s.cluster.replicas[j]?) := by
  intro new merged stale written calls event t
  have hstale : stale ↔ r.store.Knows key new.clock := by
    simp only [stale, Store.Knows, Siblings.Covers, Clock.le_iff_eq_or_before]
  rw [hstale]
  by_cases hknows : r.store.Knows key new.clock
  · obtain ⟨hact, hrun⟩ := run_put_of_error hr (Replica.write_of_knows hup hknows) fates
    exact ⟨by simp [event, hact, hknows], fun _ => ⟨congrArg Prod.snd hact, hrun⟩,
      fun h => absurd hknows h⟩
  · have hwrite : r.write key context value
        = .ok (merged, { r with store := r.store.insert key merged }) :=
      Replica.write_of_not_knows hup hknows
    obtain ⟨called, hshortest, hcluster, hletters, hact⟩ := run_put_of_ok hr hwrite hlength
    have hobstacle : (s.cluster.modify i fun _ => written).obstacle? = s.cluster.obstacle? :=
      Cluster.obstacle?_modify hr rfl
    have haccepts : (s.cluster.modify i fun _ => written).accepts = s.cluster.accepts :=
      Cluster.accepts_congr hobstacle
    rw [haccepts] at hshortest hact
    have hquorum : r.quorum.write - 1 = max r.quorum.write 1 - 1 := by omega
    have hacks : 1 + called.countP s.cluster.accepts
        = min (max r.quorum.write 1) (1 + calls.countP s.cluster.accepts) := by
      have hcount : called.countP s.cluster.accepts
        = min (r.quorum.write - 1) (calls.countP s.cluster.accepts) := hshortest.countP_eq
      omega
    rw [hquorum] at hshortest
    rw [hacks] at hact
    refine ⟨by simp [event, hact, hknows], fun h => absurd h hknows, fun _ =>
      ⟨called, hshortest, hact, hletters, ?_, ?_, fun j hij => ?_⟩⟩
    · rw [hcluster, Cluster.directory_sendAll]
      rfl
    · have hown : (s.cluster.modify i fun _ => written).replicas[i]? = some written := by
        simp [Cluster.modify, hr]
      rw [hcluster, Cluster.getElem?_sendAll_self hown, hobstacle]
      intro v hv
      rw [Store.Knows, Replica.versions_of_write hwrite]
      exact Siblings.covers_of_mem hv
    · have hother : (s.cluster.modify i fun _ => written).replicas[j]?
          = s.cluster.replicas[j]? := by
        simp [Cluster.modify, hij]
      rw [hcluster, Cluster.getElem?_sendAll hij, hother]
      rfl

/-- A list names a peer three times and an endpoint where nobody answers.  Of the calls of a
write the first is lost, the second fails and the third succeeds; the fourth is not made.  A
second write in the same context is stale. -/
theorem put_of_fates_repeated :
    let peer : Endpoint := ⟨"localhost", 8001⟩
    let nowhere : Endpoint := ⟨"localhost", 9000⟩
    let s := (start (.pair ⟨2, 1⟩)).run
      [.request 0 (.assignList [peer, ⟨"localhost", 8000⟩, nowhere, peer, peer])]
    let fates : List Fate := [.lost (.timeout peer.text), .heard, .heard, .heard]
    let version : Version := ⟨.ofPairs [("n1", 1)], [1]⟩
    let t := (s.after (.request 0 (.put "k" .empty [1]))).run (fates.map (.call 0))
    (s.cluster.act (.request 0 (.put "k" .empty [1]) fates)).1 = some (.ok (.put ⟨2, 2⟩)) ∧
      t.letters = [peer, nowhere, peer].map (.replicate · "k" [version]) ∧
      (∃ r, t.cluster.replicas[0]? = some r ∧
        r.tally.failed = [(.replicate, "unreachable"), (.replicate, "timeout")]) ∧
      (t.cluster.act (.request 0 (.put "k" .empty [2]) fates)).1 = some (.error .stale) := by
  intro peer nowhere s fates version t
  obtain ⟨r, hr, hup, hpeers, hid, hquorum, hheld, hfailed⟩ : ∃ r,
      s.cluster.replicas[0]? = some r ∧ r.outage.down = false ∧
      r.list.filter (· ≠ r.endpoint) = [peer, nowhere, peer, peer] ∧ r.id = "n1" ∧
      r.quorum = ⟨2, 1⟩ ∧ r.store.versions "k" = [] ∧ r.tally.failed = [] :=
    ⟨_, rfl, rfl, by decide +kernel, rfl, rfl, rfl, rfl⟩
  have hlength : fates.length = r.peers.length := by rw [Replica.peers, hpeers]; rfl
  obtain ⟨-, -, hwalk⟩ := put_of_fates hr hup hlength "k" .empty [1]
  have hfresh : ¬ ∃ v ∈ r.store.versions "k", Clock.empty.increment r.id = v.clock ∨
      (Clock.empty.increment r.id).before v.clock = true := by simp [hheld]
  obtain ⟨called, hshortest, hact, hletters, -, hown, -⟩ := hwalk hfresh
  rw [hpeers, hquorum] at hshortest
  have hthree : called = [(peer, .lost (.timeout peer.text)), (nowhere, .heard), (peer, .heard)] :=
    hshortest.unique (.cons (.cons (.cons (.of_zero _ _))))
  subst hthree
  have hstale : (t.cluster.act (.request 0 (.put "k" .empty [2]) fates)).1
      = some (.error .stale) := by
    refine (put_of_fates hown hup hlength "k" .empty [2]).1.mpr ⟨version, ?_, .inl ?_⟩
    · rw [hheld, hid]
      simp only [Replica.countFailures, Store.versions, KeyMap.get?_insert, if_true]
      exact List.mem_singleton_self version
    · exact congrArg (Clock.empty.increment ·) hid
  refine ⟨?_, ?_, ⟨_, hown, ?_⟩, hstale⟩
  · rw [hact, hpeers, hquorum]
    rfl
  · rw [hheld, hid] at hletters
    exact hletters
  · simp only [Replica.countFailures, hfailed]
    rfl

end Traffic

end QuorumStore
