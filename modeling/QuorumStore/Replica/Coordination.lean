/-
A replica that serves a client and turns to its peers for it.

* `walk`: asks peers in order until enough of them have answered;
* `put`: signs and merges a write, then replicates the merged set until the
  write quorum is met.  The write stands whatever the peers answer;
* `get`: merges the answers of peers into the local versions until the read
  quorum is met;
* `gossip`: pushes the whole store to every peer.

A call that fails is counted and passed over.  How calls are carried is left to
the surroundings.
-/
import QuorumStore.Replica.Basic

namespace QuorumStore

/-- What a serving replica finds around it, in a state `σ`. -/
structure Surroundings (σ : Type) where
  /-- The serving replica. -/
  self : σ → Replica
  /-- Changes the serving replica. -/
  update : (Replica → Replica) → σ → σ
  /-- The time in milliseconds. -/
  now : σ → Nat
  /-- Sets the timer of an outage of the serving replica: its length, then its
  episode. -/
  setTimer : Nat → Nat → σ → σ
  /-- Asks a peer to merge versions of a key. -/
  replicate : Endpoint → String → Siblings → σ → Except CallError Bool × σ
  /-- Asks a peer for its versions of a key. -/
  fetch : Endpoint → String → σ → Except CallError Siblings × σ
  /-- Asks a peer to merge a store. -/
  absorb : Endpoint → Store → σ → Except CallError Unit × σ

/-- What became of a write that was accepted. -/
structure Receipt where
  /-- How many replicas confirmed it, the serving one included. -/
  acks : Nat
  /-- How many were wanted. -/
  quorum : Nat
  deriving DecidableEq

/-- Whether as many replicas confirmed a write as were wanted. -/
def Receipt.met (r : Receipt) : Bool :=
  r.quorum ≤ r.acks

namespace Coordination

variable {σ α β : Type}

/-- Asks peers in order and collects the answers until they are enough. -/
def walk (ask : Endpoint → σ → Except CallError α × σ) (enough : β → Bool) (add : β → α → β) :
    List Endpoint → β → σ → β × σ
  | [], got, s => (got, s)
  | p :: rest, got, s =>
    if enough got then (got, s)
    else
      match ask p s with
      | (.ok a, s) => walk ask enough add rest (add got a) s
      | (.error _, s) => walk ask enough add rest got s

/-- Asks a peer and counts a failure at the serving replica. -/
def counted (env : Surroundings σ) (method : Method)
    (ask : Endpoint → σ → Except CallError α × σ) (p : Endpoint) (s : σ) :
    Except CallError α × σ :=
  match ask p s with
  | (.ok a, s) => (.ok a, s)
  | (.error e, s) => (.error e, env.update (·.countFailure method e) s)

/-- Serves a client's write. -/
def put (env : Surroundings σ) (key : String) (context : Clock) (value : Bytes) (s : σ) :
    Except Refusal Receipt × σ :=
  let r := env.self s
  match r.write key context value with
  | .error e => (.error e, s)
  | .ok (merged, r') =>
    let (acks, s) := walk (counted env .replicate fun p => env.replicate p key merged)
      (fun acks => r.quorum.write ≤ acks) (fun acks _ => acks + 1)
      r.peers 1 (env.update (fun _ => r') s)
    (.ok ⟨acks, r.quorum.write⟩, s)

/-- Serves a client's read. -/
def get (env : Surroundings σ) (key : String) (s : σ) : Except Refusal Siblings × σ :=
  let r := env.self s
  match r.outage.available with
  | .error e => (.error e, s)
  | .ok () =>
    let ((_, versions), s) := walk (counted env .fetch fun p => env.fetch p key)
      (fun got => r.quorum.read ≤ got.1)
      (fun got remote => (got.1 + 1, (Siblings.merge got.2 remote).versions))
      r.peers (1, r.store.versions key) s
    (if versions.isEmpty then .error (.notFound key) else .ok versions, s)

/-- Pushes the store to every peer; the answer is how many took it. -/
def gossip (env : Surroundings σ) (s : σ) : Except Refusal Nat × σ :=
  let r := env.self s
  match r.outage.available with
  | .error e => (.error e, s)
  | .ok () =>
    let (reached, s) := walk (counted env .absorb fun p => env.absorb p r.store)
      (fun _ => false) (fun reached _ => reached + 1) r.peers 0 s
    (.ok reached, s)

/-- Goes out of service for some milliseconds. -/
def crashFor (env : Surroundings σ) (duration : Nat) (s : σ) : Except Refusal Bool × σ :=
  match (env.self s).outage.start (env.now s) duration with
  | .error e => (.error e, s)
  | .ok o =>
    (.ok true, env.setTimer (Outage.timer duration) o.episode
      (env.update (fun r => { r with outage := o }) s))

/-- Goes out of service for some seconds. -/
def crash (env : Surroundings σ) (seconds : UInt64) (s : σ) : Except Refusal Bool × σ :=
  crashFor env (seconds.toNat * 1000) s

/-! ### Serving requests -/

/-- What came of a request that was not refused. -/
inductive Outcome where
  | put (receipt : Receipt)
  | get (versions : Siblings)
  | replicate (stored : Bool)
  | fetch (versions : Siblings)
  | absorb
  | gossip (reached : Nat)
  | crash (ok : Bool)
  | assignList
  deriving DecidableEq

/-- What is reported of an outcome. -/
def Outcome.response : Outcome → Response
  | put _ => .put true
  | get versions => .get versions
  | replicate stored => .replicate stored
  | fetch versions => .fetch versions
  | absorb => .absorb
  | gossip _ => .gossip
  | crash ok => .crash ok
  | assignList => .assignList

/-- Does what a request asks for. -/
def perform (env : Surroundings σ) (request : Request) (s : σ) : Except Refusal Outcome × σ :=
  match request with
  | .put key context value =>
    let (r, s) := put env key context value s
    (r.map .put, s)
  | .get key =>
    let (r, s) := get env key s
    (r.map .get, s)
  | .replicate key versions =>
    let (r, self) := (env.self s).replicate key versions
    (r.map .replicate, env.update (fun _ => self) s)
  | .fetch key => (((env.self s).fetch key).map .fetch, s)
  | .absorb pushed =>
    let (r, self) := (env.self s).absorb pushed
    (r.map fun _ => .absorb, env.update (fun _ => self) s)
  | .gossip =>
    let (r, s) := gossip env s
    (r.map .gossip, s)
  | .crash seconds =>
    let (r, s) := crash env seconds s
    (r.map .crash, s)
  | .assignList list => (.ok .assignList, env.update (·.assignList list) s)

/-- The word that an outcome is counted under. -/
def outcomeLabel : Except Refusal Outcome → String
  | .ok _ => "ok"
  | .error e => e.code

/-- Serves a request: does what it asks for, counts it, and replies. -/
def dispatch (env : Surroundings σ) (request : Request) (s : σ) : Reply × σ :=
  let (r, s) := perform env request s
  ((r.mapError Fault.ofRefusal).map Outcome.response,
    env.update (·.countServed request.method (outcomeLabel r)) s)

end Coordination

end QuorumStore
