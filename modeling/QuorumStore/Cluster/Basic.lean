/-
Replicas in one process.  A directory says which replica answers at an endpoint;
a replica that is not in it cannot be reached.

* `Cluster.deliver`: carries a call to the replica that answers at an endpoint;
* `Cluster.getElem?_deliver`: only that replica changes.
-/
import QuorumStore.Replica.Coordination

namespace QuorumStore

/-- Some replicas, and who of them answers where. -/
structure Cluster where
  /-- The replicas. -/
  replicas : List Replica
  /-- The endpoints at which one answers, with its index. -/
  directory : List (Endpoint × Nat)
  deriving Inhabited

namespace Cluster

/-- The index of the replica that answers at an endpoint. -/
def whoAnswers? (c : Cluster) (e : Endpoint) : Option Nat :=
  (c.directory.find? fun p => p.1 = e).map Prod.snd

/-- Cuts an endpoint off. -/
def detach (c : Cluster) (e : Endpoint) : Cluster :=
  { c with directory := c.directory.filter fun p => p.1 ≠ e }

/-- Lets a replica answer at its endpoint, in place of any other. -/
def attach (c : Cluster) (i : Nat) : Cluster :=
  match c.replicas[i]? with
  | none => c
  | some r =>
    { c.detach r.endpoint with
      directory := (r.endpoint, i) :: (c.detach r.endpoint).directory }

/-- A cluster of replicas that all answer; of two with one endpoint the later
does. -/
def ofReplicas (replicas : List Replica) : Cluster :=
  (List.range replicas.length).foldl attach ⟨replicas, []⟩

/-- A cluster of replicas with the endpoints and names of a ring.  Each is given
the ring from its own place on as its preference list, or an empty list. -/
def ofRing (ring : List (String × Endpoint)) (quorum : Quorum) (timeout : Nat) (lists : Bool) :
    Cluster :=
  let endpoints := ring.map Prod.snd
  ofReplicas (ring.zipIdx.map fun ((id, e), i) =>
    (Replica.new e id quorum timeout).assignList
      (if lists then Ring.startingAt endpoints i else []))

/-- Two replicas, each with the other in its preference list. -/
def pair (quorum : Quorum) : Cluster :=
  ofRing [("n1", ⟨"localhost", 8000⟩), ("n2", ⟨"localhost", 8001⟩)] quorum 500 true

/-- Puts a replica in the place of another. -/
def set (c : Cluster) (i : Nat) (r : Replica) : Cluster :=
  { c with replicas := c.replicas.set i r }

/-- Changes a replica. -/
def modify (c : Cluster) (i : Nat) (f : Replica → Replica) : Cluster :=
  { c with replicas := c.replicas.modify i f }

/-- Carries a call to the replica that answers at an endpoint. -/
def deliver {α : Type} (c : Cluster) (e : Endpoint)
    (serve : Replica → Except Refusal α × Replica) : Except CallError α × Cluster :=
  match c.whoAnswers? e with
  | none => (.error (.unreachable e.text .noSuchNode), c)
  | some i =>
    match c.replicas[i]? with
    | none => (.error (.unreachable e.text .noSuchNode), c)
    | some r =>
      let (answer, r) := serve r
      (answer.mapError fun refusal => .remote (.ofRefusal refusal), c.set i r)

/-- A delivery changes only the replica that answers. -/
theorem getElem?_deliver {α : Type} (c : Cluster) (e : Endpoint)
    (serve : Replica → Except Refusal α × Replica) {j : Nat} (h : c.whoAnswers? e ≠ some j) :
    (c.deliver e serve).2.replicas[j]? = c.replicas[j]? := by
  unfold deliver
  split
  · rfl
  · rename_i i hi
    have hij : i ≠ j := fun hij => h (hij ▸ hi)
    split
    · rfl
    · simp [set, hij]

/-- A read that a peer serves, which leaves the peer as it was. -/
def serveFetch (key : String) (r : Replica) : Except Refusal Siblings × Replica :=
  (r.fetch key, r)

end Cluster

end QuorumStore
