/-
What happens to a cluster when operations overlap.  A write, a read or a push
that a replica serves turns to one peer after the other, and each of its calls
is a move of its own: between two of them other replicas are asked, recover, are
cut off, or make calls of their own.  A message stays on its way after its
sender has stopped waiting, and may arrive at any later time or more than once.

* `Operation`: a write, read or push with what it has got so far;
* `Traffic.after`: what a move does;
* `Traffic.Reaches`: what the moves of a kind lead to.

An operation whose calls are made without a break is an event of
`Cluster.History`.
-/
import QuorumStore.Cluster.History

namespace QuorumStore

/-- A write that a replica has accepted. -/
structure Write where
  /-- The replica that accepted it. -/
  node : Nat
  /-- The name that this replica signs with. -/
  signer : String
  key : String
  /-- The context that the client gave. -/
  context : Clock
  value : Bytes
  deriving DecidableEq

namespace Write

/-- The clock that the write was signed with. -/
def clock (w : Write) : Clock :=
  w.context.increment w.signer

/-- The version that the write made. -/
def version (w : Write) : Version :=
  ⟨w.clock, w.value⟩

end Write

/-- What a replica has got so far for a write, a read or a push. -/
inductive Errand where
  /-- A write, the merged set that is replicated, and how many confirmed it. -/
  | put (write : Write) (merged : Siblings) (acks : Nat)
  /-- A read, how many contributed, and their versions. -/
  | get (key : String) (reads : Nat) (versions : Siblings)
  /-- A push of a store, and how many took it. -/
  | gossip (snapshot : Store) (reached : Nat)

/-- A message that a replica sends to a peer to change it. -/
inductive Letter where
  /-- The peer is to merge versions of a key. -/
  | replicate (peer : Endpoint) (key : String) (versions : Siblings)
  /-- The peer is to merge a store, all of it at once.  A push that takes several frames
  may break off between two of them; no move does that, and what is left then is said in
  `QuorumStore.Proofs.Resumption`. -/
  | absorb (peer : Endpoint) (pushed : Store)

namespace Letter

/-- A message arrives, and nobody hears the answer. -/
def arrive (c : Cluster) : Letter → Cluster
  | replicate peer key versions => (c.deliver peer (·.replicate key versions)).2
  | absorb peer pushed => (c.deliver peer (·.absorb pushed)).2

end Letter

namespace Errand

variable {σ : Type}

/-- Whether as many replicas have answered as are wanted.  A push goes to all. -/
def enough (quorum : Quorum) : Errand → Bool
  | put _ _ acks => quorum.write ≤ acks
  | get _ reads _ => quorum.read ≤ reads
  | gossip _ _ => false

/-- Turns to a peer and adds its answer. -/
def ask (env : Surroundings σ) (peer : Endpoint) (s : σ) : Errand → Except CallError Errand × σ
  | put write merged acks =>
    let (answer, s) :=
      Coordination.counted env .replicate (fun p => env.replicate p write.key merged) peer s
    (answer.map fun _ => put write merged (acks + 1), s)
  | get key reads versions =>
    let (answer, s) := Coordination.counted env .fetch (fun p => env.fetch p key) peer s
    (answer.map fun remote => get key (reads + 1) (versions.merge remote).versions, s)
  | gossip snapshot reached =>
    let (answer, s) := Coordination.counted env .absorb (fun p => env.absorb p snapshot) peer s
    (answer.map fun _ => gossip snapshot (reached + 1), s)

/-- The message that turning to a peer sends, if it is to change the peer. -/
def letter? (peer : Endpoint) : Errand → Option Letter
  | put write merged _ => some (.replicate peer write.key merged)
  | get _ _ _ => none
  | gossip snapshot _ => some (.absorb peer snapshot)

/-- What comes of it if no further peer answers. -/
def outcome (quorum : Quorum) : Errand → Except Refusal Coordination.Outcome
  | put _ _ acks => .ok (.put ⟨acks, quorum.write⟩)
  | get key _ versions =>
    if versions.isEmpty then .error (.notFound key) else .ok (.get versions)
  | gossip _ reached => .ok (.gossip reached)

/-- The write, if it is one. -/
def write? : Errand → Option Write
  | put write _ _ => some write
  | get _ _ _ => none
  | gossip _ _ => none

end Errand

/-- A write, read or push that a replica has begun. -/
structure Operation where
  /-- The replica that serves it. -/
  node : Nat
  /-- How many replicas are wanted. -/
  quorum : Quorum
  /-- What it has got so far. -/
  errand : Errand
  /-- The peers that are still to be called. -/
  rest : List Endpoint
  /-- The peers whose answer was heard, last first, with what they or the way to
  them had against the call. -/
  heard : List (Endpoint × Option CallError)

namespace Operation

/-- What came of an operation, once it has enough answers or no peer is left. -/
def reply (o : Operation) : Option (Except Refusal Coordination.Outcome) :=
  if o.errand.enough o.quorum ∨ o.rest = [] then some (o.errand.outcome o.quorum) else none

/-- The peers that answered with what they hold or that they hold nothing. -/
def answered (o : Operation) : List Endpoint :=
  (o.heard.filter fun p => p.2 = none ∨ p.2 = some (.remote .notFound)).map Prod.fst

/-- The peers that did what they were asked for. -/
def confirmed (o : Operation) : List Endpoint :=
  (o.heard.filter fun p => p.2 = none).map Prod.fst

/-- Takes note of how a call to a peer ended. -/
def note (o : Operation) (peer : Endpoint) (rest : List Endpoint) (fate : Fate)
    (answer : Except CallError Errand) : Operation where
  node := o.node
  quorum := o.quorum
  errand := match answer with
    | .ok errand => errand
    | .error _ => o.errand
  rest := rest
  heard := match fate, answer with
    | .heard, .ok _ => (peer, none) :: o.heard
    | .heard, .error e => (peer, some e) :: o.heard
    | _, _ => o.heard

end Operation

/-- The operation that a request begins at a replica, with the replica after its
own part of it; nothing for a request that is refused or needs no peer. -/
def Replica.begin (i : Nat) (r : Replica) : Request → Option (Operation × Replica)
  | .put key context value =>
    match r.write key context value with
    | .ok (merged, r') =>
      some (⟨i, r.quorum, .put ⟨i, r.id, key, context, value⟩ merged 1, r.peers, []⟩, r')
    | .error _ => none
  | .get key =>
    match r.outage.available with
    | .ok () => some (⟨i, r.quorum, .get key 1 (r.store.versions key), r.peers, []⟩, r)
    | .error _ => none
  | .gossip =>
    match r.outage.available with
    | .ok () => some (⟨i, r.quorum, .gossip r.store 0, r.peers, []⟩, r)
    | .error _ => none
  | _ => none

/-- A cluster with the operations that were begun and the messages that were
sent, both in order. -/
structure Traffic where
  /-- The replicas. -/
  cluster : Cluster
  /-- The operations, those that have ended included. -/
  operations : List Operation
  /-- The messages, those that have arrived included. -/
  letters : List Letter

/-- Something that happens in a cluster. -/
inductive Move where
  /-- A replica is asked for something. -/
  | request (node : Nat) (request : Request)
  /-- An operation makes its next call, which fares as its fate has it. -/
  | call (operation : Nat) (fate : Fate)
  /-- A message that was sent arrives. -/
  | arrival (letter : Nat)
  /-- The timer of an outage fires. -/
  | recovery (node : Nat)
  /-- A replica is cut off. -/
  | detachment (node : Nat)
  /-- A replica answers at its endpoint again. -/
  | attachment (node : Nat)

namespace Traffic

/-- A cluster in which nothing has happened. -/
def start (c : Cluster) : Traffic :=
  ⟨c, [], []⟩

/-- A replica is asked for something. -/
def ask (s : Traffic) (i : Nat) (request : Request) : Traffic :=
  match s.cluster.replicas[i]?.bind (·.begin i request) with
  | some (o, r) =>
    { s with cluster := s.cluster.modify i fun _ => r, operations := s.operations ++ [o] }
  | none => { s with cluster := (s.cluster.act (.request i request [])).2 }

/-- An operation makes its next call; one that has ended makes none. -/
def call (s : Traffic) (k : Nat) (fate : Fate) : Traffic :=
  match s.operations[k]? with
  | none => s
  | some o =>
    if o.errand.enough o.quorum then s
    else
      match o.rest with
      | [] => s
      | peer :: rest =>
        let (answer, f) :=
          o.errand.ask (Fated.surroundings o.node default) peer ⟨s.cluster, [fate]⟩
        { cluster := f.cluster
          operations := s.operations.set k (o.note peer rest fate answer)
          letters := s.letters ++ (o.errand.letter? peer).toList }

/-- A message that was sent arrives. -/
def arrive (s : Traffic) (j : Nat) : Traffic :=
  match s.letters[j]? with
  | none => s
  | some letter => { s with cluster := letter.arrive s.cluster }

/-- What a move does. -/
def after (s : Traffic) : Move → Traffic
  | .request i request => s.ask i request
  | .call k fate => s.call k fate
  | .arrival j => s.arrive j
  | .recovery i => { s with cluster := (s.cluster.act (.recovery i)).2 }
  | .detachment i => { s with cluster := (s.cluster.act (.detachment i)).2 }
  | .attachment i => { s with cluster := (s.cluster.act (.attachment i)).2 }

/-- Moves one after the other. -/
def run (s : Traffic) (moves : List Move) : Traffic :=
  moves.foldl after s

/-- What moves of a kind, which may depend on what has happened so far, lead to. -/
inductive Reaches (Allowed : Traffic → Move → Prop) (s : Traffic) : Traffic → Prop where
  | refl : Reaches Allowed s s
  | step {t : Traffic} {m : Move} :
      Reaches Allowed s t → Allowed t m → Reaches Allowed s (t.after m)

/-- Each of some moves is of a kind when it is made. -/
def Allows (Allowed : Traffic → Move → Prop) : Traffic → List Move → Prop
  | _, [] => True
  | s, m :: rest => Allowed s m ∧ Allows Allowed (s.after m) rest

/-- Moves of a kind lead to what they lead to. -/
theorem Reaches.run {Allowed : Traffic → Move → Prop} {s t : Traffic} {moves : List Move}
    (h : Reaches Allowed s t) (hmoves : Allows Allowed t moves) :
    Reaches Allowed s (t.run moves) := by
  induction moves generalizing t with
  | nil => exact h
  | cons m rest ih => exact ih (h.step hmoves.1) hmoves.2

/-- The writes that were accepted, in order. -/
def writes (s : Traffic) : List Write :=
  s.operations.filterMap fun o => o.errand.write?

/-- A read of a key has ended with some versions. -/
def Returned (s : Traffic) (key : String) (versions : Siblings) : Prop :=
  ∃ o ∈ s.operations, o.reply = some (.ok (.get versions)) ∧
    ∃ reads, o.errand = .get key reads versions

/-! ### Kinds of moves -/

/-- No replica is given another preference list. -/
def KeepsLists (_ : Traffic) (m : Move) : Prop :=
  ∀ i list, m ≠ .request i (.assignList list)

/-- Replicas are asked by clients only: what they are to merge comes from other
replicas. -/
def Closed (_ : Traffic) (m : Move) : Prop :=
  (∀ i key versions, m ≠ .request i (.replicate key versions)) ∧
    ∀ i pushed, m ≠ .request i (.absorb pushed)

/-- Besides, a client writes in the empty context or in the context of what it has
read of the key. -/
def ReadBeforeWrite (s : Traffic) (m : Move) : Prop :=
  s.Closed m ∧ ∀ i key context value, m = .request i (.put key context value) →
    context = Clock.empty ∨ ∃ versions, s.Returned key versions ∧ context = versions.context

end Traffic

end QuorumStore
