/-
A client that reads a key and writes it in the context of what it has read.  The new
version is strictly after all that was read, so it replaces whatever that covers.

* `Siblings.merge_of_lt`: a version that is after all others of a set replaces them;
* `Operation.Gathers`: a read has got all that its replica held when it began;
* `Traffic.supersedes_of_read`: the write is accepted, and its replica then holds the new
  version only, as does each peer that confirms it and held nothing else than what was read.
-/
import QuorumStore.Proofs.Deliveries
import QuorumStore.Proofs.Durability
import QuorumStore.Proofs.Joins
import QuorumStore.Proofs.LostWrites

namespace QuorumStore

/-- A counter that can be counted up makes a clock strictly later. -/
lemma Clock.lt_increment {c : Clock} {id : String} (h : c.get id ≠ counterLimit) :
    c < c.increment id := by
  refine lt_of_le_not_ge (le_increment c id) fun hle => not_next_le h ?_
  have hbelow := hle id
  rwa [get_increment_self] at hbelow

/-! ### One version that is after all others -/

namespace Siblings

variable {held : Siblings} {v : Version}

/-- A version that is after all that are held replaces them. -/
lemma merge_of_lt (h : ∀ w ∈ held, w.clock < v.clock) : held.merge [v] = ⟨[v], 1⟩ := by
  have hnone : held.filter (survives [v]) = [] := by
    refine List.filter_eq_nil_iff.mpr fun w hw hsurvives => ?_
    exact survives_iff.mp hsurvives v (List.mem_singleton_self v) (h w hw)
  have hfresh : held.isFresh v = true := by
    rw [isFresh_iff]
    rintro ⟨w, hw, hle⟩
    exact hle.not_gt (h w hw)
  simp [merge, hnone, hfresh]

end Siblings

namespace Replica

variable {r : Replica} {key : String}

/-- A store that holds only what is before a version takes the version instead. -/
lemma versions_absorb_of_lt {v : Version} (h : ∀ w ∈ r.store.versions key, w.clock < v.clock) :
    (r.store.absorb key [v]).2.versions key = [v] := by
  have hmerge := Siblings.merge_of_lt h
  rw [Store.versions_absorb_of_changed (by rw [hmerge]; rfl), hmerge]

/-- A replica in service accepts a write after all that it holds. -/
lemma write_of_lt {context : Clock} {value : Bytes} (hup : r.outage.down = false)
    (h : ∀ w ∈ r.store.versions key, w.clock < context.increment r.id) :
    ∃ r', r.write key context value = .ok ([⟨context.increment r.id, value⟩], r') := by
  have hnew : ¬ r.store.Knows key (context.increment r.id) := by
    rintro ⟨w, hw, hle⟩
    exact hle.not_gt (h w hw)
  have hmerge : (r.store.versions key).merge [⟨context.increment r.id, value⟩]
      = ⟨[⟨context.increment r.id, value⟩], 1⟩ := Siblings.merge_of_lt h
  have hwrite : r.write key context value = .ok (_, _) := write_of_not_knows hup hnew
  rw [hmerge] at hwrite
  exact ⟨_, hwrite⟩

lemma versions_replicate_of_lt {v : Version} (hup : r.outage.down = false)
    (h : ∀ w ∈ r.store.versions key, w.clock < v.clock) :
    (r.replicate key [v]).2.store.versions key = [v] := by
  rw [replicate_eq, hup]
  exact versions_absorb_of_lt h

end Replica

/-- What each call of a walk gives to replicas, the walk gives them. -/
lemma Fated.evolves_walk {Given : String → Siblings → Prop} {Relisted : Prop} {α β : Type} {i : ℕ}
    {r : Replica} {method : Method} (serve : Replica → Except Refusal α × Replica)
    (h : ∀ q : Replica, q.Evolves Given Relisted (serve q).2) (enough : β → Bool)
    (add : β → α → β) (peers : List Endpoint) (b : β) (f : Fated) :
    f.cluster.Evolves Given Relisted (Coordination.walk (Coordination.counted (surroundings i r)
      method fun p => exchange p serve) enough add peers b f).2.cluster :=
  Coordination.walk_rel (R := fun f f' : Fated => f.cluster.Evolves Given Relisted f'.cluster)
    (fun f => .refl f.cluster) .trans (fun _ f => evolves_counted_exchange serve f h)
    enough add peers b f

/-- A write that leaves a replica with one version of a key, told as one event: it is accepted,
and the replica still has this version when the calls are over, even if it answers them
itself. -/
lemma Cluster.act_put_of_write {c : Cluster} {i : ℕ} {r r' : Replica} {key : String}
    {context : Clock} {value : Bytes} {v : Version} (hr : c.replicas[i]? = some r)
    (hwrite : r.write key context value = .ok ([v], r')) (fates : List Fate) :
    ∃ receipt c', c.act (.request i (.put key context value) fates)
      = (some (.ok (.put receipt)), c') ∧ c'.versions i key = [v] := by
  have hself : (Fated.surroundings i r).self ⟨c, fates⟩ = r := Fated.self_surroundings hr
  have hwritten : (c.modify i fun _ => r').replicas[i]? = some r' := by simp [modify, hr]
  have hversions := Replica.versions_of_write hwrite
  have hstays : ∀ c', (c.modify i fun _ => r').Evolves (fun k given => k = key ∧ given = [v])
      False c' → c'.versions i key = [v] := by
    intro c' hevolves
    obtain ⟨r'', hr'', hgiven⟩ := hevolves.exists_after hwritten
    rw [versions_of_getElem? hr'', hgiven.versions_eq_of_knows, hversions]
    rintro versions ⟨-, rfl⟩ w hw
    rw [Store.Knows, hversions]
    exact Siblings.covers_of_mem hw
  have hgives : ∀ q : Replica, q.Evolves (fun k given => k = key ∧ given = [v]) False
      (q.replicate key [v]).2 := fun q => Replica.evolves_replicate ⟨rfl, rfl⟩
  simp only [act, hr, Coordination.perform, Coordination.put, hself, hwrite]
  exact ⟨_, _, rfl, hstays _ <| Fated.evolves_walk (·.replicate key [v]) hgives _ _ _ _
    ⟨c.modify i fun _ => r', fates⟩⟩

/-! ### Reads -/

/-- An operation is a read of a key that has got all that some versions cover. -/
def Operation.Gathers (key : String) (held : Siblings) (o : Operation) : Prop :=
  ∃ reads versions, o.errand = .get key reads versions ∧ ∀ c, held.Covers c → versions.Covers c

namespace Operation.Gathers

variable {key : String} {held found : Siblings} {o : Operation}

/-- A call keeps what a read has got. -/
lemma note {c : Cluster} {fate : Fate} {peer : Endpoint} {rest : List Endpoint}
    {answer : Except CallError Errand} {f : Fated} (h : o.Gathers key held)
    (hask : o.errand.ask (Fated.surroundings o.node default) peer ⟨c, [fate]⟩ = (answer, f)) :
    (o.note peer rest fate answer).Gathers key held := by
  obtain ⟨reads, versions, herrand, hcovers⟩ := h
  cases answer with
  | error e => exact ⟨reads, versions, herrand, hcovers⟩
  | ok x =>
    rw [herrand] at hask
    obtain ⟨-, j, q, remote, -, -, -, rfl⟩ := Errand.ask_get_eq_ok hask
    exact ⟨_, _, rfl, fun d hd => Siblings.covers_merge.mpr (.inl (hcovers d hd))⟩

/-- What a read returns covers what it has got. -/
lemma covers_of_reply (h : o.Gathers key held) (hreply : o.reply = some (.ok (.get found)))
    {c : Clock} (hc : held.Covers c) : found.Covers c := by
  obtain ⟨reads, versions, herrand, hcovers⟩ := h
  have houtcome := Operation.eq_outcome_of_reply hreply
  rw [herrand, Errand.outcome] at houtcome
  split at houtcome
  · cases houtcome
  · cases houtcome
    exact hcovers c hc

end Operation.Gathers

namespace Traffic

variable {s t u w : Traffic} {i k : ℕ} {r : Replica} {key : String} {o : Operation}
variable {found : Siblings} {value : Bytes}

/-- A read that a replica in service begins has got what this holds, and changes nothing. -/
lemma after_get (hr : s.cluster.replicas[i]? = some r) (hup : r.outage.down = false) :
    s.after (.request i (.get key)) =
      ⟨s.cluster, s.operations ++ [⟨i, r.quorum, .get key 1 (r.store.versions key), r.peers, []⟩],
        s.letters⟩ := by
  have hbegin : r.begin i (.get key)
      = some (⟨i, r.quorum, .get key 1 (r.store.versions key), r.peers, []⟩, r) := by
    rw [Replica.begin, Outage.available_of_up hup]
  change s.ask i (.get key) = _
  simp [ask, hr, hbegin, Cluster.modify_of_getElem? hr]

/-- As long as a replica is spared of a key that it has begun to read, what the read returns
covers all that the replica holds. -/
lemma covers_of_read (hr : s.cluster.replicas[i]? = some r) (hup : r.outage.down = false)
    (ht : Reaches (Spares i key) (s.after (.request i (.get key))) t)
    (ho : t.operations[s.operations.length]? = some o)
    (hreply : o.reply = some (.ok (.get found))) :
    ∃ r', t.cluster.replicas[i]? = some r' ∧ r'.id = r.id ∧ r'.outage.down = false ∧
      ∀ v ∈ r'.store.versions key, found.Covers v.clock := by
  rw [after_get hr hup] at ht
  obtain ⟨r', hr', hid, hversions, hup'⟩ := ht.exists_of_spares hr hup
  obtain ⟨o', ho', hgathers⟩ := ht.exists_operation
    (P := Operation.Gathers key (r.store.versions key)) (fun _ _ _ _ _ _ _ h _ hask => h.note hask)
    List.getElem?_concat_length ⟨1, _, rfl, fun _ hc => hc⟩
  cases ho.symm.trans ho'
  refine ⟨r', hr', hid, hup', fun v hv => ?_⟩
  rw [hversions] at hv
  exact hgathers.covers_of_reply hreply (Siblings.covers_of_mem hv)

/-! ### Confirmations -/

/-- A peer that confirms a write with a call is in service and has merged what is replicated. -/
lemma exists_replicate_of_confirmed {p p' : Operation} {peer : Endpoint} {fate : Fate}
    {write : Write} {merged : Siblings} {acks : ℕ} (hp : w.operations[k]? = some p)
    (hput : p.errand = .put write merged acks)
    (hp' : (w.after (.call k fate)).operations[k]? = some p')
    (hconfirmed : p'.confirmed = peer :: p.confirmed) :
    ∃ j q, w.cluster.whoAnswers? peer = some j ∧ w.cluster.replicas[j]? = some q ∧
      q.outage.down = false ∧ (w.after (.call k fate)).cluster.replicas[j]?
        = some (q.replicate write.key merged).2 := by
  cases continues hp' with
  | kept hkept =>
    cases hp.symm.trans hkept
    exact absurd hconfirmed.symm (List.cons_ne_self _ _)
  | begun hm => cases hm
  | @called fate' o peer' rest answer f hm ho henough hrest hask hafter =>
    cases hm
    cases hp.symm.trans ho
    cases answer with
    | error e =>
      have hsame : (p.note peer' rest fate (.error e)).confirmed = p.confirmed := by
        cases fate <;> rfl
      exact absurd (hsame.symm.trans hconfirmed).symm (List.cons_ne_self _ _)
    | ok x =>
      rw [hput] at hask
      obtain ⟨rfl, -, j, q, hj, hq, hup, hset⟩ := Errand.ask_put_eq_ok hask
      obtain rfl : peer' = peer := (List.cons.inj hconfirmed).1
      have hlt := (List.getElem?_eq_some_iff.mp hq).1
      refine ⟨j, q, hj, hq, hup, ?_⟩
      rw [hafter, hset, Cluster.set, List.getElem?_set_self hlt]

/-- The calls of a write give replicas nothing but what it replicates. -/
lemma givesUpTo_call {p : Operation} {fate : Fate} {write : Write} {v : Version} {acks j : ℕ}
    (hp : w.operations[k]? = some p) (hput : p.errand = .put write [v] acks) :
    GivesUpTo j key v.clock w (.call k fate) := by
  rintro versions (_ | ⟨ho, ⟨-, peer, rest, -, hl⟩, -, -, hcarries⟩ | _) v' hv'
  cases hp.symm.trans ho
  rw [hput] at hl
  cases hl
  obtain ⟨-, rfl⟩ := hcarries
  rw [List.mem_singleton.mp hv']

/-! ### Reading, then writing -/

/-- **Superseding.**  In whatever state, let a replica in service begin to read a key and the
read return some versions.  If the replica is given nothing of the key and is not put out of
service meanwhile, it then accepts a write in the context of these versions, provided that
its own counter there can be counted up.  The new version is strictly after all that was
read.  The replica holds it alone, as long as nothing is given to it that is not equal to or
before it, and the calls of the write give nothing else.  The same holds of each peer that
confirms the write, if what was read covered all that the peer held before. -/
theorem supersedes_of_read (hr : s.cluster.replicas[i]? = some r) (hup : r.outage.down = false)
    (ht : Reaches (Spares i key) (s.after (.request i (.get key))) t)
    (ho : t.operations[s.operations.length]? = some o)
    (hreply : o.reply = some (.ok (.get found)))
    (hlimit : found.context.get r.id < counterLimit) (value : Bytes) :
    let new : Version := ⟨found.context.increment r.id, value⟩
    let u := t.after (.request i (.put key found.context value))
    let k := t.operations.length
    (∀ fates, ∃ receipt c', t.cluster.act (.request i (.put key found.context value) fates)
      = (some (.ok (.put receipt)), c') ∧ c'.versions i key = [new]) ∧
    (∀ v ∈ found, v.clock.before new.clock = true) ∧
    (∀ w, Reaches (GivesUpTo i key new.clock) u w → w.cluster.versions i key = [new]) ∧
    ∀ w, Reaches (fun _ _ => True) u w → ∃ p, w.operations[k]? = some p ∧
      p.errand.write? = some ⟨i, r.id, key, found.context, value⟩ ∧
      ∀ fate, (∀ j, GivesUpTo j key new.clock w (.call k fate)) ∧
        ∀ p' peer, (w.after (.call k fate)).operations[k]? = some p' →
          p'.confirmed = peer :: p.confirmed →
          ∃ j, w.cluster.whoAnswers? peer = some j ∧
            ((∀ v ∈ w.cluster.versions j key, found.Covers v.clock) →
              ∀ x, Reaches (GivesUpTo j key new.clock) (w.after (.call k fate)) x →
                x.cluster.versions j key = [new]) := by
  obtain ⟨r', hr', hid, hup', hcovers⟩ := covers_of_read hr hup ht ho hreply
  rw [← hid] at hlimit ⊢
  intro new u k
  have hlt : ∀ v : Version, found.Covers v.clock → v.clock < new.clock := fun v hv =>
    hv.le_context.trans_lt (Clock.lt_increment (UInt64.ne_of_lt hlimit))
  obtain ⟨r'', hwrite⟩ : ∃ r'', r'.write key found.context value = .ok ([new], r'') :=
    Replica.write_of_lt hup' fun v hv => hlt v (hcovers v hv)
  have hstays : ∀ j (w x : Traffic), w.cluster.versions j key = [new] →
      Reaches (GivesUpTo j key new.clock) w x → x.cluster.versions j key = [new] := by
    intro j w x hw hx
    rw [hx.versions_of_givesUpTo (hw ▸ ⟨new, List.mem_singleton_self _, le_rfl⟩), hw]
  refine ⟨fun fates => Cluster.act_put_of_write hr' hwrite fates, fun v hv => ?_,
    fun w hw => hstays i u w ?_ hw, fun w hw => ?_⟩
  · exact Clock.before_iff_lt.mpr (hlt v (Siblings.covers_of_mem hv))
  · rw [Cluster.versions_of_getElem? (getElem?_after_put hr' hwrite),
      Replica.versions_of_write hwrite]
  · obtain ⟨o₀, ho₀, hserves₀⟩ := exists_serves_of_write hr' hwrite
    obtain ⟨p, hp, hserves⟩ := hw.exists_operation
      (fun _ _ _ _ _ _ _ h hrest hask => h.note hrest hask) ho₀ hserves₀
    obtain ⟨acks, hput⟩ := hserves.errand
    refine ⟨p, hp, by rw [hput]; rfl, fun fate => ⟨fun j => givesUpTo_call hp hput, ?_⟩⟩
    intro p' peer hp' hconfirmed
    obtain ⟨j, q, hj, hq, hupq, hafter⟩ := exists_replicate_of_confirmed hp hput hp' hconfirmed
    refine ⟨j, hj, fun hread x hx => hstays j _ x ?_ hx⟩
    rw [Cluster.versions_of_getElem? hq] at hread
    rw [Cluster.versions_of_getElem? hafter]
    exact Replica.versions_replicate_of_lt hupq fun v hv => hlt v (hread v hv)

/-- Two replicas have accepted concurrent writes.  A client reads both versions at one of them
and writes there; the other one confirms the write.  Then each holds the new version only. -/
theorem supersedes_of_read_pair :
    let first : Version := ⟨.ofPairs [("n1", 1)], [1]⟩
    let second : Version := ⟨.ofPairs [("n2", 1)], [2]⟩
    let new : Version := ⟨.ofPairs [("n1", 2), ("n2", 1)], [3]⟩
    let s := (start (.pair ⟨2, 2⟩)).run
      [.request 0 (.put "k" .empty [1]), .request 1 (.put "k" .empty [2])]
    let t := (s.after (.request 0 (.get "k"))).after (.call 2 .heard)
    let u := t.after (.request 0 (.put "k" (Siblings.context [first, second]) [3]))
    s.cluster.versions 0 "k" = [first] ∧ s.cluster.versions 1 "k" = [second] ∧
      first.clock.before new.clock = true ∧ second.clock.before new.clock = true ∧
      u.cluster.versions 0 "k" = [new] ∧
      (u.after (.call 3 .heard)).cluster.versions 1 "k" = [new] := by
  intro first second new s t u
  obtain ⟨r, hr, hup, hid⟩ : ∃ r, s.cluster.replicas[0]? = some r ∧ r.outage.down = false ∧
      r.id = "n1" := ⟨_, rfl, rfl, rfl⟩
  have hspares : Spares 0 "k" (s.after (.request 0 (.get "k"))) (.call 2 .heard) := by
    refine ⟨?_, by simp [Crashes]⟩
    rintro versions (_ | ⟨ho, ⟨-, peer, rest, -, hl⟩, -⟩ | _)
    cases ho
    cases hl
  obtain ⟨o, ho, hreply⟩ : ∃ o, t.operations[s.operations.length]? = some o ∧
      o.reply = some (.ok (.get [first, second])) := ⟨_, rfl, by decide +kernel⟩
  have hlimit : (Siblings.context [first, second]).get r.id < counterLimit := by
    rw [hid]
    decide +kernel
  obtain ⟨-, hafter, hown, hpeers⟩ :=
    supersedes_of_read hr hup (Reaches.refl.step hspares) ho hreply hlimit [3]
  have hnew : (⟨(Siblings.context [first, second]).increment r.id, [3]⟩ : Version) = new := by
    rw [hid]
    decide +kernel
  rw [hnew] at hafter hown hpeers
  obtain ⟨p, hp, -, hcall⟩ := hpeers u .refl
  have hconfirmed : ((u.after (.call 3 .heard)).operations[3]?.map Operation.confirmed)
      = some (⟨"localhost", 8001⟩ :: p.confirmed) := by
    cases hp
    rfl
  obtain ⟨p', hp', hpeer⟩ := Option.map_eq_some_iff.mp hconfirmed
  obtain ⟨j, hj, hholds⟩ := (hcall .heard).2 p' _ hp' hpeer
  have hone : j = 1 := (Option.some.inj hj).symm
  subst hone
  have hread : ∀ v ∈ u.cluster.versions 1 "k", Siblings.Covers [first, second] v.clock := by
    have hheld : u.cluster.versions 1 "k" = [second] := rfl
    rw [hheld, List.forall_mem_singleton]
    exact Siblings.covers_of_mem (by simp)
  exact ⟨rfl, rfl, hafter _ List.mem_cons_self, hafter _ (by simp), hown u .refl,
    hholds hread _ .refl⟩

end Traffic

end QuorumStore
