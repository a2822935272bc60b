/-
The replicas of a sound configuration know one another.

* `Config.places`: the indices of the replicas behind the one at an index, in the
  order of the ring and wrapping around;
* `Launch.Placed`: what a replica knows of its place in the ring;
* `Launch.Serving`: a cluster of which every replica knows its place, is in
  service and is found where it listens;
* `Coordination.walk_of_takes`: a walk ends with the peer that makes the quorum,
  if all peers before it take what they are sent;
* `Network.takes_of_found`: the replicas at some places take what they are sent
  over connections, and no other changes;
* `Network.put_of_overlong`: a write of which the call does not fit into a frame
  reaches no peer;
* `Launch.topology_of_problems_eq_nil`: so a replica of a sound configuration knows
  its place, and its writes reach the replicas behind it.

The list of the replica at an index is the ring read from that index on
(`Ring.startingAt_eq_filterMap`); without its first member it is a sequence of
places, of which any beginning is one too.
-/
import Mathlib.Data.Nat.ModEq
import QuorumStore.Launch
import QuorumStore.Proofs.Rotations
import QuorumStore.Proofs.Validation
import QuorumStore.Replica.History

namespace QuorumStore

namespace Config

variable {c : Config} {i : Nat}

/-- The indices of some replicas behind the one at an index, wrapping around. -/
def places (c : Config) (i count : Nat) : List Nat :=
  (List.range' (i + 1) count).map (· % c.nodes.length)

/-- The endpoints of these replicas. -/
def successors (c : Config) (i count : Nat) : List Endpoint :=
  (c.places i count).filterMap (c.ring[·]?)

lemma successors_add (c : Config) (i a b : Nat) :
    c.successors i (a + b) = c.successors i a ++ c.successors (i + a) b := by
  have split : List.range' (i + 1) (a + b) =
      List.range' (i + 1) a ++ List.range' (i + a + 1) b := by
    rw [show i + a + 1 = i + 1 + a by omega, List.range'_append_1]
  rw [successors, successors, successors, places, places, places, split, List.map_append,
    List.filterMap_append]

lemma lt_of_mem_places {j count : Nat} (hnodes : c.nodes ≠ []) (hj : j ∈ c.places i count) :
    j < c.nodes.length := by
  obtain ⟨k, -, rfl⟩ := List.mem_map.mp hj
  exact Nat.mod_lt k (List.length_pos_iff.mpr hnodes)

lemma length_successors (hnodes : c.nodes ≠ []) (count : Nat) :
    (c.successors i count).length = count := by
  have found : ∀ j ∈ c.places i count, (c.ring[j]?).isSome := fun j hj => by
    have hlt : j < c.ring.length := by
      rw [ring, List.length_map]
      exact lt_of_mem_places hnodes hj
    rw [List.getElem?_eq_getElem hlt, Option.isSome_some]
  have lengths := congrArg List.length (Ring.map_some_filterMap found)
  simpa [successors, places] using lengths

/-- Fewer places than there are replicas do not wrap around to where they
begin. -/
lemma nodup_places {count : Nat} (hi : i < c.nodes.length) (hcount : count < c.nodes.length) :
    (i :: c.places i count).Nodup := by
  have whole : i :: c.places i count = (List.range' i (count + 1)).map (· % c.nodes.length) := by
    rw [List.range'_succ, List.map_cons, Nat.mod_eq_of_lt hi, places]
  rw [whole]
  refine List.Nodup.map_on (fun a ha b hb hab => ?_) List.nodup_range'
  rw [List.mem_range'_1] at ha hb
  -- Both are less than a whole turn behind the beginning.
  have turn : i + (a - i) ≡ i + (b - i) [MOD c.nodes.length] := by
    rw [Nat.add_sub_cancel' ha.1, Nat.add_sub_cancel' hb.1]
    exact hab
  have same := Nat.ModEq.eq_of_lt_of_lt (Nat.ModEq.add_left_cancel' i turn) (by omega) (by omega)
  omega

/-- The preference list of a replica: itself, then all others behind it. -/
lemma list_eq {n : NodeConfig} (hn : c.nodes[i]? = some n) :
    c.list i = n.endpoint :: c.successors i (c.nodes.length - 1) := by
  obtain ⟨hi, -⟩ := List.getElem?_eq_some_iff.mp hn
  have first : c.ring[i]? = some n.endpoint := by rw [ring, List.getElem?_map, hn, Option.map_some]
  have length : c.ring.length = (c.nodes.length - 1) + 1 := by
    rw [ring, List.length_map]
    omega
  rw [list, Ring.startingAt_eq_filterMap, length, List.range'_succ, ← length, ring,
    List.length_map, ← ring, List.filterMap_cons_some (b := n.endpoint), successors, places,
    List.filterMap_map]
  · rfl
  · rw [Nat.mod_eq_of_lt hi, first]

end Config

/-! ### What a replica knows of its place -/

namespace Launch

/-- **What a replica knows of its place.**  It is the one that is configured at
an index; its list begins with itself, and its peers are all the others, each
once, in the order of the ring from the next index on. -/
structure Placed (c : Config) (i : Nat) (n : NodeConfig) (r : Replica) : Prop where
  /-- It listens where it is configured to. -/
  endpoint : r.endpoint = n.endpoint
  /-- It has the name that is configured. -/
  id : r.id = n.id
  /-- It wants to reach as many replicas as is configured. -/
  quorum : r.quorum = ⟨c.writeQuorum, c.readQuorum⟩
  /-- It is the first in its list. -/
  first : r.list.head? = some r.endpoint
  /-- Its peers are the replicas at the places behind it. -/
  peers : r.peers = c.successors i (c.nodes.length - 1)
  /-- They and itself are all the replicas. -/
  all : (r.endpoint :: r.peers).Perm c.ring
  /-- None of them is there twice. -/
  once : (r.endpoint :: r.peers).Nodup

/-- What a cluster is like in which all is well. -/
structure Serving (c : Config) (k : Cluster) : Prop where
  /-- There is a replica at every place, which knows it. -/
  placed : ∀ i n, c.nodes[i]? = some n → ∃ r, k.replicas[i]? = some r ∧ Placed c i n r
  /-- Every replica is found where it listens. -/
  listens : ∀ i r, k.replicas[i]? = some r → k.whoAnswers? r.endpoint = some i
  /-- No replica is out of service. -/
  up : ∀ r ∈ k.replicas, r.outage.down = false

variable {c : Config} {i : Nat} {n : NodeConfig}

lemma placed_of_list (hring : c.ring.Nodup) (hn : c.nodes[i]? = some n) {r : Replica}
    (hendpoint : r.endpoint = n.endpoint) (hid : r.id = n.id)
    (hquorum : r.quorum = ⟨c.writeQuorum, c.readQuorum⟩) (hlist : r.list = c.list i) :
    Placed c i n r := by
  have list := Config.list_eq hn
  have perm : (c.list i).Perm c.ring := by
    rw [Config.list, Ring.startingAt_eq_rotate]
    exact List.rotate_perm _ _
  have once : (c.list i).Nodup := perm.nodup_iff.mpr hring
  rw [list] at once
  have others : ∀ e ∈ c.successors i (c.nodes.length - 1), e ≠ n.endpoint := fun e he h =>
    (List.nodup_cons.mp once).1 (h ▸ he)
  have peers : r.peers = c.successors i (c.nodes.length - 1) := by
    rw [Replica.peers, hlist, list, hendpoint, List.filter_cons_of_neg (by simp)]
    exact List.filter_eq_self.mpr fun e he => decide_eq_true (others e he)
  have whole : r.endpoint :: r.peers = c.list i := by rw [peers, hendpoint, list]
  exact ⟨hendpoint, hid, hquorum, by rw [hlist, list, hendpoint, List.head?_cons], peers,
    whole ▸ perm, whole ▸ list ▸ once⟩

lemma placed_replica (hring : c.ring.Nodup) (hn : c.nodes[i]? = some n) :
    Placed c i n (replica c i n) :=
  placed_of_list hring hn rfl rfl rfl rfl

/-! ### Starting replicas -/

/-- In a list without repeated names the first with a name is the one that has
it. -/
lemma find?_of_nodup {α β : Type} [DecidableEq β] {f : α → β} {l : List α}
    (hnodup : (l.map f).Nodup) {x : α} (hx : x ∈ l) :
    l.find? (fun y => f y = f x) = some x := by
  cases hfound : l.find? (fun y => f y = f x) with
  | none => simpa using List.find?_eq_none.mp hfound x hx
  | some y =>
    have same : f y = f x := by simpa using List.find?_some hfound
    rw [List.inj_on_of_nodup_map hnodup (List.mem_of_find?_eq_some hfound) hx same]

/-- The configured replicas, in the order of the ring. -/
lemma filterMap_range {α β : Type} (f : Nat → α → β) (l : List α) :
    ((List.range l.length).filterMap fun i => l[i]?.map (f i)) = l.mapIdx f := by
  induction l generalizing f with
  | nil => rfl
  | cons x rest ih =>
    rw [List.length_cons, List.range_succ_eq_map, List.filterMap_cons, List.filterMap_map,
      List.mapIdx_cons, ← ih]
    rfl

/-- Replicas that can all listen are all started. -/
lemma mapM_of_canBind {canBind : Endpoint → Bool} {replicas : List Replica}
    (h : ∀ r ∈ replicas, canBind r.endpoint = true) :
    (replicas.mapM fun r => if canBind r.endpoint then .ok r
      else (.error (.cannotBind r.endpoint) : Except LaunchError Replica)) = .ok replicas := by
  induction replicas with
  | nil => rfl
  | cons r rest ih =>
    obtain ⟨hr, hrest⟩ := List.forall_mem_cons.mp h
    rw [List.mapM_cons, ih hrest, if_pos hr]
    rfl

/-- All replicas are started if all can listen. -/
lemma launch_all {canBind : Endpoint → Bool} (h : ∀ e ∈ c.ring, canBind e = true) :
    launch canBind c none = .ok (Cluster.ofReplicas (c.nodes.mapIdx (replica c))) := by
  have bound : ∀ r ∈ c.nodes.mapIdx (replica c), canBind r.endpoint = true := by
    intro r hr
    obtain ⟨i, hi, rfl⟩ := List.mem_mapIdx.mp hr
    exact h _ (List.mem_map_of_mem (List.getElem_mem hi))
  simp only [launch, selected, bind, Except.bind, filterMap_range, mapM_of_canBind bound]

/-- A replica is found by its name. -/
lemma node?_of_nodup (hids : (c.nodes.map NodeConfig.id).Nodup) (hn : c.nodes[i]? = some n) :
    c.node? n.id = some (i, n) := by
  have names : (c.nodes.zipIdx.map fun p => p.1.id) = c.nodes.map NodeConfig.id := by
    rw [show (fun p : NodeConfig × Nat => p.1.id) = NodeConfig.id ∘ Prod.fst from rfl,
      ← List.map_map, List.zipIdx_map_fst]
  have found := find?_of_nodup (names ▸ hids) (List.mk_mem_zipIdx_iff_getElem?.mpr hn)
  rw [Config.node?, found, Option.map_some]

/-- The one replica that is asked for is started if it can listen. -/
lemma launch_one {canBind : Endpoint → Bool} (hids : (c.nodes.map NodeConfig.id).Nodup)
    (hn : c.nodes[i]? = some n) (h : canBind n.endpoint = true) :
    launch canBind c (some n.id) = .ok (Cluster.ofReplicas [replica c i n]) := by
  have bound : ∀ r ∈ [replica c i n], canBind r.endpoint = true :=
    List.forall_mem_singleton.mpr h
  have one : [i].filterMap (fun i => c.nodes[i]?.map (replica c i)) = [replica c i n] := by
    simp [hn]
  simp only [launch, selected, node?_of_nodup hids hn, bind, Except.bind, one,
    mapM_of_canBind bound]

end Launch

namespace Cluster

lemma replicas_attach (c : Cluster) (i : Nat) : (c.attach i).replicas = c.replicas := by
  rw [attach]
  split <;> rfl

lemma replicas_foldl_attach (indices : List Nat) (c : Cluster) :
    (indices.foldl attach c).replicas = c.replicas := by
  induction indices generalizing c with
  | nil => rfl
  | cons i rest ih => exact (ih _).trans (replicas_attach c i)

lemma replicas_ofReplicas (replicas : List Replica) : (ofReplicas replicas).replicas = replicas :=
  replicas_foldl_attach _ _

/-- A replica that is attached is found where it listens. -/
lemma whoAnswers?_attach {c : Cluster} {i : Nat} {r : Replica} (hr : c.replicas[i]? = some r)
    (e : Endpoint) :
    (c.attach i).whoAnswers? e = if e = r.endpoint then some i else c.whoAnswers? e := by
  simp only [whoAnswers?, attach, hr, detach, List.find?_cons]
  split_ifs with h
  · rw [decide_eq_true h.symm, Option.map_some]
  · have kept : ∀ p : Endpoint × Nat,
        decide (decide (p.1 ≠ r.endpoint) = true ∧ decide (p.1 = e) = true) =
          decide (p.1 = e) := fun p => by
      by_cases hp : p.1 = e <;> simp [hp, h]
    rw [decide_eq_false fun h' => h h'.symm, List.find?_filter]
    simp only [kept]

/-- Replicas that listen at different endpoints are all found there. -/
lemma whoAnswers?_ofReplicas {replicas : List Replica}
    (hnodup : (replicas.map Replica.endpoint).Nodup) {i : Nat} {r : Replica}
    (hr : replicas[i]? = some r) :
    (ofReplicas replicas).whoAnswers? r.endpoint = some i := by
  have hi : i < replicas.length := (List.getElem?_eq_some_iff.mp hr).1
  -- A replica that has been attached stays found while others follow.
  have found : ∀ count, i < count → count ≤ replicas.length →
      ((List.range count).foldl attach ⟨replicas, []⟩).whoAnswers? r.endpoint = some i := by
    intro count hcount hle
    induction count with
    | zero => exact absurd hcount (Nat.not_lt_zero i)
    | succ count ih =>
      have hq : ((List.range count).foldl attach ⟨replicas, []⟩).replicas[count]? =
          some replicas[count] := by
        rw [replicas_foldl_attach]
        exact List.getElem?_eq_getElem hle
      rw [List.range_succ, List.foldl_append, List.foldl_cons, List.foldl_nil,
        whoAnswers?_attach hq]
      split_ifs with hsame
      · have endpoints : (replicas.map Replica.endpoint)[i]? =
            (replicas.map Replica.endpoint)[count]? := by
          rw [List.getElem?_map, List.getElem?_map, hr, List.getElem?_eq_getElem hle,
            Option.map_some, Option.map_some, hsame]
        rw [(List.getElem?_inj (by rwa [List.length_map]) hnodup).mp endpoints]
      · refine ih (Nat.lt_of_le_of_ne (Nat.le_of_lt_succ hcount) fun h => hsame ?_)
          (Nat.le_of_succ_le hle)
        subst h
        rw [List.getElem?_eq_getElem hi] at hr
        exact congrArg Replica.endpoint (Option.some.inj hr).symm
  exact found replicas.length hi (Nat.le_refl _)

end Cluster

namespace Launch

variable {c : Config} {i : Nat} {n : NodeConfig}

lemma map_mapIdx_replica {β : Type} {f : Replica → β} {g : NodeConfig → β}
    (h : ∀ i n, f (replica c i n) = g n) :
    (c.nodes.mapIdx (replica c)).map f = c.nodes.map g := by
  refine List.ext_getElem? fun j => ?_
  rw [List.getElem?_map, List.getElem?_mapIdx, List.getElem?_map, Option.map_map]
  exact congrArg (Option.map · _) (funext (h j))

/-- A replica that has just been started is found by its name. -/
lemma node?_ofReplicas {replicas : List Replica} (hnodup : (replicas.map Replica.id).Nodup)
    {r : Replica} (hr : r ∈ replicas) : node? (Cluster.ofReplicas replicas) r.id = some r := by
  rw [node?, Cluster.replicas_ofReplicas]
  exact find?_of_nodup hnodup hr

/-- The replicas that have just been started are in their places, and none is
out of service. -/
lemma serving_ofReplicas (hring : c.ring.Nodup) :
    Serving c (Cluster.ofReplicas (c.nodes.mapIdx (replica c))) where
  placed i n hn := by
    refine ⟨replica c i n, ?_, placed_replica hring hn⟩
    rw [Cluster.replicas_ofReplicas, List.getElem?_mapIdx, hn, Option.map_some]
  listens i r hr := by
    rw [Cluster.replicas_ofReplicas] at hr
    refine Cluster.whoAnswers?_ofReplicas ?_ hr
    rw [map_mapIdx_replica (g := NodeConfig.endpoint) fun _ _ => rfl]
    exact hring
  up r hr := by
    rw [Cluster.replicas_ofReplicas] at hr
    obtain ⟨i, hi, rfl⟩ := List.mem_mapIdx.mp hr
    rfl

end Launch

/-! ### Writes that peers take -/

namespace Coordination

section

variable {σ : Type} (env : Surroundings σ) (key : String) (versions : Siblings)

/-- Whether peers that are sent versions one after the other all take them. -/
def Takes : List Endpoint → σ → Prop
  | [], _ => True
  | p :: rest, s =>
    (∃ stored, (env.replicate p key versions s).1 = .ok stored) ∧
      Takes rest (env.replicate p key versions s).2

/-- What is left when peers have been sent versions one after the other. -/
def delivered (peers : List Endpoint) (s : σ) : σ :=
  peers.foldl (fun s p => (env.replicate p key versions s).2) s

variable {env key versions}

/-- A walk ends with the peer that makes the quorum, if all peers before it take
what they are sent. -/
lemma walk_of_takes {peers : List Endpoint} {s : σ} (h : Takes env key versions peers s)
    (more : List Endpoint) {acks quorum : Nat} (hquorum : quorum = acks + peers.length) :
    walk (counted env .replicate fun p => env.replicate p key versions) (fun acks => quorum ≤ acks)
      (fun acks _ => acks + 1) (peers ++ more) acks s =
        (quorum, delivered env key versions peers s) := by
  induction peers generalizing acks s with
  | nil =>
    obtain rfl : quorum = acks := hquorum
    cases more with
    | nil => rfl
    | cons p rest => rw [List.nil_append, walk, if_pos (by simp)]; rfl
  | cons p rest ih =>
    obtain ⟨⟨stored, hstored⟩, hrest⟩ := h
    have wanting : ¬ (decide (quorum ≤ acks)) = true := by
      rw [List.length_cons] at hquorum
      simp only [decide_eq_true_eq]
      omega
    have answer : counted env .replicate (fun p => env.replicate p key versions) p s =
        (.ok stored, (env.replicate p key versions s).2) := by
      simp only [counted]
      split <;> simp_all
    rw [List.cons_append, walk, if_neg wanting, answer]
    exact ih hrest (by rw [hquorum, List.length_cons]; omega)

/-- A write that is accepted reaches as many replicas as are wanted, if the first
peers take it. -/
lemma put_of_takes {s : σ} {context : Clock} {value : Bytes} {merged : Siblings} {r' : Replica}
    (hwrite : (env.self s).write key context value = .ok (merged, r'))
    {peers more : List Endpoint} (hpeers : (env.self s).peers = peers ++ more)
    (hquorum : (env.self s).quorum.write = 1 + peers.length)
    (h : Takes env key merged peers (env.update (fun _ => r') s)) :
    put env key context value s =
      (.ok ⟨(env.self s).quorum.write, (env.self s).quorum.write⟩,
        delivered env key merged peers (env.update (fun _ => r') s)) := by
  simp only [put, hwrite, hpeers, walk_of_takes h more hquorum]

end

end Coordination

/-! ### Writes over connections -/

namespace Network

/-- A replica after it has been sent versions of a key. -/
def received (key : String) (versions : Siblings) (r : Replica) : Replica :=
  (r.replicate key versions).2.countServed .replicate "ok"

variable {reach : Reach} (onward : Dial Cluster) {key : String} {versions : Siblings}

/-- A replica in service takes what it is sent over a connection. -/
lemma replicate_of_up {c : Cluster} {e : Endpoint} {j : Nat} {q : Replica}
    (hway : reach e.text = none) (hpeer : c.whoAnswers? e = some j)
    (hq : c.replicas[j]? = some q) (hup : q.outage.down = false)
    (hfits : (Request.replicate key versions).toJson.render.utf8ByteSize ≤ Frame.maxLength) :
    ∃ stored, Caller.replicate (converse reach onward) e.text key versions c =
      (.ok stored, c.set j (received key versions q)) := by
  rw [replicate_converse onward hway hpeer hq key versions hfits, received, Replica.replicate_eq,
    if_neg (by simp [hup])]
  exact ⟨_, rfl⟩

/-- **Replicas that are in service and can be found take what they are sent, and
no other replica changes.** -/
lemma takes_of_found {ring : List Endpoint} (i : Nat) (r : Replica) {places : List Nat}
    (hfits : places ≠ [] →
      (Request.replicate key versions).toJson.render.utf8ByteSize ≤ Frame.maxLength)
    (hnodup : places.Nodup) {c : Cluster}
    (h : ∀ j ∈ places, ∃ e q, ring[j]? = some e ∧ reach e.text = none ∧
      c.whoAnswers? e = some j ∧ c.replicas[j]? = some q ∧ q.outage.down = false) :
    Coordination.Takes (surroundings (converse reach onward) i r) key versions
      (places.filterMap (ring[·]?)) c ∧
    ∀ j, (Coordination.delivered (surroundings (converse reach onward) i r) key versions
        (places.filterMap (ring[·]?)) c).replicas[j]? =
      if j ∈ places then (c.replicas[j]?).map (received key versions) else c.replicas[j]? := by
  induction places generalizing c with
  | nil => exact ⟨trivial, fun j => rfl⟩
  | cons m rest ih =>
    obtain ⟨hm, hrest⟩ := List.nodup_cons.mp hnodup
    obtain ⟨⟨e, q, he, hway, hpeer, hq, hup⟩, hlater⟩ := List.forall_mem_cons.mp h
    have fits := hfits (List.cons_ne_nil m rest)
    obtain ⟨stored, htaken⟩ := replicate_of_up onward hway hpeer hq hup fits
    have others : ∀ j, j ≠ m → (c.set m (received key versions q)).replicas[j]? = c.replicas[j]? :=
      fun j hj => List.getElem?_set_ne hj.symm
    obtain ⟨htakes, hleft⟩ := ih (fun _ => fits) hrest (c := c.set m (received key versions q))
        fun j hj => by
      obtain ⟨e', q', he', hway', hpeer', hq', hup'⟩ := hlater j hj
      exact ⟨e', q', he', hway', hpeer', (others j fun h => hm (h ▸ hj)).trans hq', hup'⟩
    rw [List.filterMap_cons_some he]
    refine ⟨⟨⟨stored, congrArg Prod.fst htaken⟩, ?_⟩, fun j => ?_⟩
    · exact (congrArg Prod.snd htaken).symm ▸ htakes
    · have first : Coordination.delivered (surroundings (converse reach onward) i r) key versions
          (e :: rest.filterMap (ring[·]?)) c = Coordination.delivered
            (surroundings (converse reach onward) i r) key versions
            (rest.filterMap (ring[·]?)) (c.set m (received key versions q)) :=
        congrArg (Coordination.delivered (surroundings (converse reach onward) i r) key versions _)
          (congrArg Prod.snd htaken)
      rw [first, hleft]
      by_cases hj : j = m
      · subst hj
        have inRange : j < c.replicas.length := (List.getElem?_eq_some_iff.mp hq).1
        rw [if_neg hm, if_pos List.mem_cons_self, hq, Option.map_some]
        exact List.getElem?_set_self inRange
      · simp only [List.mem_cons, hj, false_or, others j hj]

variable (reach) in
/-- Calls that do not fit into frames are counted as failures, and that is all. -/
lemma walk_of_overlong
    (hlong : Frame.maxLength < (Request.replicate key versions).toJson.render.utf8ByteSize)
    (i : Nat) (r : Replica) (enough : Nat → Bool) (peers : List Endpoint) (acks : Nat)
    (c : Cluster) :
    let env := surroundings (converse reach onward) i r
    ∃ f : Replica → Replica, (∀ q, (f q).store = q.store) ∧
      Coordination.walk (Coordination.counted env .replicate fun p =>
        env.replicate p key versions) enough (fun acks _ => acks + 1) peers acks c =
          (acks, c.modify i f) := by
  intro env
  have unchanged : ∀ c : Cluster, c.modify i id = c := fun c => by
    rw [Cluster.modify, List.modify_id]
  induction peers generalizing c with
  | nil => exact ⟨id, fun _ => rfl, congrArg (acks, ·) (unchanged c).symm⟩
  | cons p rest ih =>
    by_cases henough : enough acks = true
    · refine ⟨id, fun _ => rfl, ?_⟩
      rw [Coordination.walk, if_pos henough, unchanged]
    · obtain ⟨e, hcall⟩ := call_of_overlong onward hlong p.text c
      have refused : env.replicate p key versions c = (.error e, c) := by
        change Caller.ask _ _ _ _ _ = _
        rw [Caller.ask, hcall]
      have counted : Coordination.counted env .replicate (fun p => env.replicate p key versions) p
          c = (.error e, c.modify i (·.countFailure .replicate e)) := by
        rw [Coordination.counted, refused]
        rfl
      obtain ⟨f, hf, hrest⟩ := ih (c.modify i (·.countFailure .replicate e))
      refine ⟨f ∘ (·.countFailure .replicate e), fun q => hf _, ?_⟩
      rw [Coordination.walk, if_neg henough, counted]
      refine hrest.trans ?_
      simp only [Cluster.modify, List.modify_modify_eq]

variable (reach) in
/-- **A write that does not fit into a frame reaches no peer.**  It stands all the
same, and the receipt counts the serving replica alone. -/
theorem put_of_overlong {k : Cluster} {i : Nat} {r r' : Replica} (hr : k.replicas[i]? = some r)
    {context : Clock} {value : Bytes} {merged : Siblings}
    (hwrite : r.write key context value = .ok (merged, r'))
    (hlong : Frame.maxLength < (Request.replicate key merged).toJson.render.utf8ByteSize) :
    ∃ q, q.store = r'.store ∧
      Coordination.put (surroundings (converse reach onward) i r) key context value k =
        (.ok ⟨1, r.quorum.write⟩, k.set i q) := by
  have self : (surroundings (converse reach onward) i r).self k = r := self_surroundings _ hr
  have signed : (surroundings (converse reach onward) i r).update (fun _ => r') k = k.set i r' :=
    Cluster.modify_const k i r'
  obtain ⟨f, hf, walked⟩ := walk_of_overlong reach onward hlong i r
    (fun acks => r.quorum.write ≤ acks) r.peers 1 (k.set i r')
  refine ⟨f r', hf r', ?_⟩
  simp only [Coordination.put, self, hwrite, signed, walked, Cluster.modify_set]

end Network

/-! ### A sound configuration works -/

namespace Launch

variable {c : Config} {i : Nat} {n : NodeConfig}

lemma Placed.peers_eq_append (h : Placed c i n r) (hc : c.Sound) :
    r.peers = c.successors i (c.writeQuorum - 1) ++
      c.successors (i + (c.writeQuorum - 1)) (c.nodes.length - c.writeQuorum) := by
  rw [h.peers, ← Config.successors_add]
  congr 1
  have write := hc.write
  omega

/-- A write that is accepted reaches as many replicas as are configured, if the
replicas at the places behind the serving one take it. -/
lemma put_of_placed {σ : Type} {env : Surroundings σ} {s : σ} (hc : c.Sound)
    (hplaced : Placed c i n (env.self s)) {key : String} {context : Clock} {value : Bytes}
    {merged : Siblings} {r' : Replica}
    (hwrite : (env.self s).write key context value = .ok (merged, r'))
    (htakes : Coordination.Takes env key merged (c.successors i (c.writeQuorum - 1))
      (env.update (fun _ => r') s)) :
    Coordination.put env key context value s = (.ok ⟨c.writeQuorum, c.writeQuorum⟩,
      Coordination.delivered env key merged (c.successors i (c.writeQuorum - 1))
        (env.update (fun _ => r') s)) := by
  have write := hc.write
  have quorum : (env.self s).quorum.write = c.writeQuorum := by rw [hplaced.quorum]
  have wanted : (env.self s).quorum.write =
      1 + (c.successors i (c.writeQuorum - 1)).length := by
    rw [quorum, Config.length_successors hc.nodes]
    omega
  rw [Coordination.put_of_takes hwrite (hplaced.peers_eq_append hc) wanted htakes, quorum]

/-- In a cluster in which all is well, a write that is accepted changes the
serving replica and those at the places behind it, and no other. -/
lemma put_of_serving {k : Cluster} (hc : c.Sound) (hk : Serving c k)
    (hn : c.nodes[i]? = some n) {r r' : Replica} (hr : k.replicas[i]? = some r)
    {reach : Network.Reach} (hreach : ∀ e ∈ c.ring, reach e.text = none) (onward : Dial Cluster)
    {key : String} {context : Clock} {value : Bytes} {merged : Siblings}
    (hwrite : r.write key context value = .ok (merged, r'))
    (hfits : 1 < c.writeQuorum →
      (Request.replicate key merged).toJson.render.utf8ByteSize ≤ Frame.maxLength) :
    ∃ k', Coordination.put (Network.surroundings (Network.converse reach onward) i r) key context
        value k = (.ok ⟨c.writeQuorum, c.writeQuorum⟩, k') ∧
      ∀ j, k'.replicas[j]? =
        if j ∈ c.places i (c.writeQuorum - 1) then
          (k.replicas[j]?).map (Network.received key merged)
        else if j = i then some r' else k.replicas[j]? := by
  have write := hc.write
  have hi : i < c.nodes.length := (List.getElem?_eq_some_iff.mp hn).1
  have fewer : c.writeQuorum - 1 < c.nodes.length := by omega
  obtain ⟨hout, hnodup⟩ := List.nodup_cons.mp (Config.nodup_places hi fewer)
  have self : (Network.surroundings (Network.converse reach onward) i r).self k = r :=
    Network.self_surroundings _ hr
  have others : ∀ j, j ≠ i → (k.set i r').replicas[j]? = k.replicas[j]? := fun j hj =>
    List.getElem?_set_ne hj.symm
  have found : ∀ j ∈ c.places i (c.writeQuorum - 1), ∃ e q, c.ring[j]? = some e ∧
      reach e.text = none ∧ (k.set i r').whoAnswers? e = some j ∧
      (k.set i r').replicas[j]? = some q ∧ q.outage.down = false := by
    intro j hj
    have hm := List.getElem?_eq_getElem (Config.lt_of_mem_places hc.nodes hj)
    obtain ⟨q, hq, hplaced⟩ := hk.placed j _ hm
    have hring : c.ring[j]? = some q.endpoint := by
      rw [Config.ring, List.getElem?_map, hm, Option.map_some, hplaced.endpoint]
    exact ⟨q.endpoint, q, hring, hreach _ (List.mem_of_getElem? hring), hk.listens j q hq,
      (others j fun h => hout (h ▸ hj)).trans hq, hk.up q (List.mem_of_getElem? hq)⟩
  have wanted : c.places i (c.writeQuorum - 1) ≠ [] → 1 < c.writeQuorum := by
    intro hsome
    by_contra hone
    exact hsome (by rw [Nat.sub_eq_zero_of_le (Nat.not_lt.mp hone)]; rfl)
  obtain ⟨htakes, hleft⟩ :=
    Network.takes_of_found onward i r (fun hsome => hfits (wanted hsome)) hnodup found
  have hplaced : Placed c i n r := by
    obtain ⟨q, hq, hplaced⟩ := hk.placed i n hn
    exact Option.some.inj (hr.symm.trans hq) ▸ hplaced
  rw [← self] at hwrite hplaced
  rw [← Cluster.modify_const] at htakes hleft others
  refine ⟨_, put_of_placed hc hplaced hwrite htakes, fun j => (hleft j).trans ?_⟩
  split_ifs with hj hji
  · rw [others j fun h => hout (h ▸ hj)]
  · subst hji
    rw [Cluster.modify_const]
    exact List.getElem?_set_self (List.getElem?_eq_some_iff.mp hr).1
  · exact others j hji

/-- **A configuration in which nothing is wrong makes a cluster that works.**
Started alone or with all the others, the replica at an index is what it is
configured to be and knows its place.  Wherever it knows its place, a write that
it accepts is sent to the replicas at as many places behind it as the quorum
wants besides itself; if they take it, the receipt says that the quorum is met.
Over connections they do so if they are in service and can be reached, and what
they are sent fits into a frame; no other replica changes.  Where it does not fit,
the write reaches none of them, and the receipt counts the serving replica alone. -/
theorem topology_of_problems_eq_nil (hc : c.problems = []) (hn : c.nodes[i]? = some n) :
    (∀ canBind : Endpoint → Bool, (∀ e ∈ c.ring, canBind e = true) →
      ∃ k r, launch canBind c none = .ok k ∧ k.replicas[i]? = some r ∧ node? k n.id = some r ∧
        Placed c i n r ∧ Serving c k) ∧
    (∀ canBind : Endpoint → Bool, canBind n.endpoint = true →
      ∃ k r, launch canBind c (some n.id) = .ok k ∧ k.replicas = [r] ∧ node? k n.id = some r ∧
        Placed c i n r) ∧
    (∀ (σ : Type) (env : Surroundings σ) (s : σ) (key : String) (context : Clock) (value : Bytes)
        (merged : Siblings) (r' : Replica),
      Placed c i n (env.self s) → (env.self s).write key context value = .ok (merged, r') →
      Coordination.Takes env key merged (c.successors i (c.writeQuorum - 1))
        (env.update (fun _ => r') s) →
      Coordination.put env key context value s = (.ok ⟨c.writeQuorum, c.writeQuorum⟩,
        Coordination.delivered env key merged (c.successors i (c.writeQuorum - 1))
          (env.update (fun _ => r') s))) ∧
    (∀ (k : Cluster) (r : Replica) (reach : Network.Reach) (onward : Dial Cluster) (key : String)
        (context : Clock) (value : Bytes) (merged : Siblings) (r' : Replica),
      Serving c k → k.replicas[i]? = some r → (∀ e ∈ c.ring, reach e.text = none) →
      r.write key context value = .ok (merged, r') →
      ((1 < c.writeQuorum →
          (Request.replicate key merged).toJson.render.utf8ByteSize ≤ Frame.maxLength) →
        ∃ k', Coordination.put (Network.surroundings (Network.converse reach onward) i r) key
            context value k = (.ok ⟨c.writeQuorum, c.writeQuorum⟩, k') ∧
          ∀ j, k'.replicas[j]? =
            if j ∈ c.places i (c.writeQuorum - 1) then
              (k.replicas[j]?).map (Network.received key merged)
            else if j = i then some r' else k.replicas[j]?) ∧
      (Frame.maxLength < (Request.replicate key merged).toJson.render.utf8ByteSize →
        ∃ q, q.store = r'.store ∧
          Coordination.put (Network.surroundings (Network.converse reach onward) i r) key
            context value k = (.ok ⟨1, c.writeQuorum⟩, k.set i q))) ∧
    (⟨c.writeQuorum, c.writeQuorum⟩ : Receipt).met = true := by
  have sound := Config.problems_eq_nil_iff.mp hc
  refine ⟨fun canBind hbind => ?_, fun canBind hbind => ?_, ?_, ?_, ?_⟩
  · have serving := serving_ofReplicas (c := c) sound.ring
    have hr : (c.nodes.mapIdx (replica c))[i]? = some (replica c i n) := by
      rw [List.getElem?_mapIdx, hn, Option.map_some]
    have names : ((c.nodes.mapIdx (replica c)).map Replica.id).Nodup := by
      rw [map_mapIdx_replica (g := NodeConfig.id) fun _ _ => rfl]
      exact sound.ids
    exact ⟨_, replica c i n, launch_all hbind,
      (congrArg (·[i]?) (Cluster.replicas_ofReplicas _)).trans hr,
      node?_ofReplicas names (List.mem_of_getElem? hr), placed_replica sound.ring hn, serving⟩
  · have names : ([replica c i n].map Replica.id).Nodup := List.nodup_singleton _
    exact ⟨_, replica c i n, launch_one sound.ids hn hbind, Cluster.replicas_ofReplicas _,
      node?_ofReplicas names (List.mem_singleton_self _), placed_replica sound.ring hn⟩
  · intro σ env s key context value merged r' hplaced hwrite htakes
    exact put_of_placed sound hplaced hwrite htakes
  · intro k r reach onward key context value merged r' hk hr hreach hwrite
    refine ⟨fun hfits => put_of_serving sound hk hn hr hreach onward hwrite hfits,
      fun hlong => ?_⟩
    obtain ⟨q, hq, hput⟩ := Network.put_of_overlong reach onward hr hwrite hlong
    obtain ⟨p, hp, hplaced⟩ := hk.placed i n hn
    obtain rfl : r = p := Option.some.inj (hr.symm.trans hp)
    rw [hplaced.quorum] at hput
    exact ⟨q, hq, hput⟩
  · exact decide_eq_true (Nat.le_refl _)

/-- Three replicas of which the last one writes: the write reaches the first, to
which the ring turns back, and not the second. -/
theorem topology_of_problems_eq_nil_three :
    let c : Config := ⟨2, 2, 500, none, none,
      [⟨"a", "10.0.0.1", 7⟩, ⟨"b", "10.0.0.2", 7⟩, ⟨"c", "10.0.0.1", 8⟩]⟩
    let k := Cluster.ofReplicas (c.nodes.mapIdx (replica c))
    let r := replica c 2 ⟨"c", "10.0.0.1", 8⟩
    let merged : Siblings := [⟨Clock.empty.increment "c", [1]⟩]
    c.problems = [] ∧ c.places 2 1 = [0] ∧ launch (fun _ => true) c none = .ok k ∧
    ∃ r' k', r.write "k" Clock.empty [1] = .ok (merged, r') ∧
      Coordination.put Answered.surroundings "k" Clock.empty [1]
        ⟨r, [⟨.ok true, .ok [], .ok ()⟩]⟩ = (.ok ⟨2, 2⟩, ⟨r', []⟩) ∧
      Coordination.put (Network.surroundings (Network.peerDial fun _ => none) 2 r) "k" Clock.empty
        [1] k = (.ok ⟨2, 2⟩, k') ∧
      k'.replicas[0]? = (k.replicas[0]?).map (Network.received "k" merged) ∧
      k'.replicas[1]? = k.replicas[1]? := by
  intro c k r merged
  have sound : c.problems = [] := by decide
  obtain ⟨all, alone, answered, connected, -⟩ :=
    topology_of_problems_eq_nil sound (i := 2) (n := ⟨"c", "10.0.0.1", 8⟩) rfl
  have launched : launch (fun _ => true) c none = .ok k := rfl
  obtain ⟨k₀, r₀, started, hr₀, -, placed, serving⟩ := all (fun _ => true) fun _ _ => rfl
  obtain rfl : k = k₀ := Except.ok.inj (launched.symm.trans started)
  have hr : k.replicas[2]? = some r := rfl
  obtain rfl : r = r₀ := Option.some.inj (hr.symm.trans hr₀)
  obtain ⟨r', hwrite⟩ : ∃ r', r.write "k" Clock.empty [1] = .ok (merged, r') := ⟨_, rfl⟩
  have fits : (Request.replicate "k" merged).toJson.render.utf8ByteSize ≤ Frame.maxLength := by
    decide +kernel
  obtain ⟨k', hput, hleft⟩ := (connected k r (fun _ => none) (Network.unreachable .refused) "k"
    Clock.empty [1] merged r' serving hr (fun _ _ => rfl) hwrite).1 fun _ => fits
  have first : c.places 2 1 = [0] := by decide
  refine ⟨sound, first, launched, r', k', hwrite, ?_, hput, (hleft 0).trans (if_pos ?_),
    (hleft 1).trans ((if_neg ?_).trans (if_neg (by decide)))⟩
  · have target : c.successors 2 (c.writeQuorum - 1) = [⟨"10.0.0.1", 7⟩] := by decide
    have receipt := answered Answered Answered.surroundings ⟨r, [⟨.ok true, .ok [], .ok ()⟩]⟩ "k"
      Clock.empty [1] merged r' placed hwrite
    rw [target] at receipt
    exact receipt ⟨⟨true, rfl⟩, trivial⟩
  · exact first.symm ▸ List.mem_singleton_self 0
  · exact first.symm ▸ (by decide : 1 ∉ [0])

/-- Two replicas that should both confirm a write.  The first takes a value of which
the write fits into a frame and the call that replicates it does not.  So the write is
confirmed by the first alone, although the second is in service and can be reached. -/
theorem put_of_overlong_pair :
    let c : Config := ⟨2, 1, 500, none, none, [⟨"n1", "localhost", 8000⟩, ⟨"n2", "localhost", 8001⟩]⟩
    let k := Cluster.ofReplicas (c.nodes.mapIdx (replica c))
    let r := replica c 0 ⟨"n1", "localhost", 8000⟩
    let value : Bytes := List.replicate 6291402 120
    let merged : Siblings := [⟨Clock.empty.increment "n1", value⟩]
    let served := Coordination.put (Network.surroundings (Network.peerDial fun _ => none) 0 r) "k"
      Clock.empty value k
    c.problems = [] ∧ launch (fun _ => true) c none = .ok k ∧ Serving c k ∧
      k.replicas[0]? = some r ∧ (∃ r', r.write "k" Clock.empty value = .ok (merged, r')) ∧
      (Request.put "k" Clock.empty value).toJson.render.utf8ByteSize = Frame.maxLength - 1 ∧
      (Request.replicate "k" merged).toJson.render.utf8ByteSize = Frame.maxLength + 20 ∧
      served.1 = .ok ⟨1, 2⟩ ∧ (⟨1, 2⟩ : Receipt).met = false ∧ served.1 ≠ .ok ⟨2, 2⟩ ∧
      served.2.replicas[1]? = k.replicas[1]? := by
  intro c k r value merged served
  -- only the length of the value matters
  have hlength : value.length = 6291402 := List.length_replicate
  clear_value value
  have sound : c.problems = [] := by decide
  have serving : Serving c k := serving_ofReplicas (Config.problems_eq_nil_iff.mp sound).ring
  have hr : k.replicas[0]? = some r := rfl
  have accepted : ∀ value : Bytes, ∃ r', r.write "k" Clock.empty value =
      .ok ([⟨Clock.empty.increment "n1", value⟩], r') := fun _ => ⟨_, rfl⟩
  obtain ⟨r', hwrite⟩ := accepted value
  have key : (Json.text "k").render.utf8ByteSize = 3 := rfl
  have write : (Request.put "k" Clock.empty value).toJson.render.utf8ByteSize =
      Frame.maxLength - 1 := by
    have context : Clock.empty.toContextJson.render.utf8ByteSize = 12 := rfl
    simp [Request.utf8ByteSize_put, key, context, hlength, Frame.maxLength]
  have call : (Request.replicate "k" merged).toJson.render.utf8ByteSize = Frame.maxLength + 20 := by
    have context : (Clock.empty.increment "n1").toContextJson.render.utf8ByteSize = 18 := rfl
    simp [Request.utf8ByteSize_replicate, Version.utf8ByteSize_toJson, merged, key, context,
      hlength, Frame.maxLength]
  have long : Frame.maxLength < (Request.replicate "k" merged).toJson.render.utf8ByteSize := by
    rw [call]
    simp
  obtain ⟨q, -, hput⟩ := Network.put_of_overlong (fun _ => none) (Network.unreachable .refused) hr
    hwrite long
  have receipt : served.1 = .ok ⟨1, 2⟩ := congrArg Prod.fst hput
  have left : served.2 = k.set 0 q := congrArg Prod.snd hput
  refine ⟨sound, rfl, serving, hr, ⟨r', hwrite⟩, write, call, receipt, rfl, ?_, ?_⟩
  · rw [receipt]
    simp
  · rw [left]
    exact List.getElem?_set_ne (by decide)

end Launch

end QuorumStore
