/-
A replica by itself: what it holds, and what it does without asking its peers.

* `Replica.write`: the local half of a client's write;
* `Replica.replicate`, `Replica.fetch`, `Replica.absorb`: what peers ask for.

While a replica is out of service it does none of this.
-/
import QuorumStore.Message.Basic
import QuorumStore.Outage

namespace QuorumStore

/-- How many replicas, the serving one included, a write and a read are to
reach. -/
structure Quorum where
  write : Nat
  read : Nat
  deriving DecidableEq, Inhabited

/-- What a replica has counted. -/
structure Tally where
  /-- The kinds and outcomes of the requests it served, last first. -/
  served : List (Method × String)
  /-- The kinds and error codes of its own calls that failed, last first. -/
  failed : List (Method × String)
  /-- How many versions it took from pushed stores. -/
  accepted : Nat
  deriving DecidableEq, Inhabited

/-- Nothing counted yet. -/
def Tally.zero : Tally := ⟨[], [], 0⟩

/-- A replica. -/
structure Replica where
  /-- Where it listens. -/
  endpoint : Endpoint
  /-- The name that it signs writes with. -/
  id : String
  /-- How many replicas it wants to reach. -/
  quorum : Quorum
  /-- How long it waits for an answer, in milliseconds. -/
  timeout : Nat
  /-- The replicas in the order in which it turns to them, itself among them. -/
  list : List Endpoint
  /-- The versions it holds. -/
  store : Store
  /-- Whether it is out of service. -/
  outage : Outage
  /-- What it has counted. -/
  tally : Tally
  deriving Inhabited

namespace Replica

/-- A replica that holds nothing and knows no other. -/
def new (endpoint : Endpoint) (id : String) (quorum : Quorum) (timeout : Nat) : Replica :=
  ⟨endpoint, id, quorum, timeout, [], KeyMap.empty, .none, .zero⟩

/-- The replicas it turns to, in order. -/
def peers (r : Replica) : List Endpoint :=
  r.list.filter (· ≠ r.endpoint)

/-- Takes over a preference list as it is. -/
def assignList (r : Replica) (list : List Endpoint) : Replica :=
  { r with list }

/-- Counts a call of its own that failed. -/
def countFailure (r : Replica) (method : Method) (error : CallError) : Replica :=
  { r with tally := { r.tally with failed := (method, error.code) :: r.tally.failed } }

/-- Counts a request that it served. -/
def countServed (r : Replica) (method : Method) (outcome : String) : Replica :=
  { r with tally := { r.tally with served := (method, outcome) :: r.tally.served } }

/-- Signs a write with the context it was made in and merges it.  The answer is
the merged set, which is what the peers are to be sent. -/
def write (r : Replica) (key : String) (context : Clock) (value : Bytes) :
    Except Refusal (Siblings × Replica) := do
  r.outage.available
  let (merged, store) := r.store.absorb key [⟨context.increment r.id, value⟩]
  if merged.changed then .ok (merged.versions, { r with store }) else .error .stale

/-- Merges versions of a key; the answer is whether any was new. -/
def replicate (r : Replica) (key : String) (versions : Siblings) :
    Except Refusal Bool × Replica :=
  match r.outage.available with
  | .error e => (.error e, r)
  | .ok () =>
    let (merged, store) := r.store.absorb key versions
    (.ok merged.changed, { r with store })

/-- The versions it holds of a key. -/
def fetch (r : Replica) (key : String) : Except Refusal Siblings := do
  r.outage.available
  match r.store.get? key with
  | some versions => .ok versions
  | none => .error (.notFound key)

/-- Merges versions of several keys in turn. -/
def absorbEach (r : Replica) (pairs : List (String × Siblings)) :
    Except Refusal Unit × Replica :=
  match r.outage.available with
  | .error e => (.error e, r)
  | .ok () =>
    let (accepted, store) := r.store.absorbEach pairs
    (.ok (), { r with
      store, tally := { r.tally with accepted := r.tally.accepted + accepted } })

/-- Merges a whole store. -/
def absorb (r : Replica) (pushed : Store) : Except Refusal Unit × Replica :=
  r.absorbEach pushed.entries

end Replica

end QuorumStore
