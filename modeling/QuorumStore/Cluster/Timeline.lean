/-
A cluster in time.  Only waiting takes time, and it is measured in milliseconds.

* `Link`: how calls to an endpoint fare, and `Link.course`: what that means for
  a caller with a given patience;
* `Timeline.wait`: lets time pass while a caller waits.  What becomes due
  meanwhile happens; what becomes due at the very end happens after the caller
  has gone on;
* `Timeline.sleep`: lets time pass, and all that is due until its end happens;
* `Timeline.surroundings`: the calls of a replica in such a cluster.

In the background the timers of outages fire, and replicas push their stores
periodically.  A periodic push that has to wait for a peer is set aside and
taken up again when the wait is over.
-/
import QuorumStore.Agenda
import QuorumStore.Cluster.Basic

namespace QuorumStore

/-- How calls to an endpoint fare. -/
inductive Link where
  /-- They are served and answered at once. -/
  | prompt
  /-- They are never served. -/
  | stalled
  /-- They are served after a while. -/
  | delayed (ms : Nat)
  /-- They are served at once and answered after a while. -/
  | late (ms : Nat)
  /-- They fail at once. -/
  | failing (error : CallError)

/-- What becomes of one call. -/
inductive Course where
  /-- The caller waits; then the call is served and answered. -/
  | served (wait : Nat)
  /-- The call is served; then the caller waits for the answer, or gives up. -/
  | servedFirst (wait : Nat) (heard : Bool)
  /-- The caller waits in vain; the call is never served. -/
  | lost (wait : Nat) (error : CallError)

/-- What becomes of a call over a link if the caller waits for at most
`patience`.  An answer that comes at the last moment is heard. -/
def Link.course (patience : Nat) (peer : Endpoint) : Link → Course
  | prompt => .served 0
  | stalled => .lost patience (.timeout peer.text)
  | delayed ms => if ms ≤ patience then .served ms else .lost patience (.timeout peer.text)
  | late ms => .servedFirst (min ms patience) (ms ≤ patience)
  | failing error => .lost 0 error

/-- How long a caller waits. -/
def Course.time : Course → Nat
  | served wait => wait
  | servedFirst wait _ => wait
  | lost wait _ => wait

/-- What is arranged for later. -/
inductive Wake where
  /-- The timer of an outage of a replica. -/
  | expire (node : Nat) (episode : Nat)
  /-- The beginning of a round of a periodic push. -/
  | tick (pusher : Nat)
  /-- The end of a wait in a round of a periodic push. -/
  | resume (pusher : Nat)

/-- What a round of a periodic push is waiting for. -/
inductive Awaited where
  /-- To be served by a peer. -/
  | arrival (peer : Endpoint)
  /-- To hear the outcome of a call: nothing, or what went wrong. -/
  | outcome (error : Option CallError)

/-- A round of a periodic push that has been set aside. -/
structure Round where
  /-- The store that is being pushed. -/
  snapshot : Store
  /-- What the round waits for. -/
  awaited : Awaited
  /-- The peers that are still to be called. -/
  rest : List Endpoint

/-- A periodic push. -/
structure Pusher where
  /-- The replica that pushes. -/
  node : Nat
  /-- The time between rounds. -/
  period : Nat
  /-- When the next round is due. -/
  due : Nat
  /-- The round that has been set aside. -/
  round : Option Round

/-- A cluster with its clock and all that is going on in it. -/
structure Timeline where
  /-- The replicas. -/
  cluster : Cluster
  /-- The time. -/
  now : Nat
  /-- The links that are not prompt, the latest change first. -/
  links : List (Endpoint × Link)
  /-- What is to happen. -/
  agenda : Agenda Wake
  /-- The periodic pushes. -/
  pushers : List Pusher
  /-- The replicas that have been given up. -/
  gone : List Nat

namespace Timeline

/-- A cluster at the beginning of time. -/
def start (cluster : Cluster) : Timeline :=
  ⟨cluster, 0, [], [], [], []⟩

/-- The replica at an index, unless it has been given up. -/
def replica? (t : Timeline) (i : Nat) : Option Replica :=
  if i ∈ t.gone then none else t.cluster.replicas[i]?

/-- The link to an endpoint. -/
def link (t : Timeline) (e : Endpoint) : Link :=
  ((t.links.find? fun p => p.1 = e).map Prod.snd).getD .prompt

/-- Changes the link to an endpoint. -/
def setLink (t : Timeline) (e : Endpoint) (l : Link) : Timeline :=
  { t with links := (e, l) :: t.links }

/-- Arranges something for later. -/
def arrange (t : Timeline) (due : Nat) (w : Wake) : Timeline :=
  { t with agenda := Agenda.arrange due w t.agenda }

/-- Changes a replica. -/
def modify (t : Timeline) (i : Nat) (f : Replica → Replica) : Timeline :=
  { t with cluster := t.cluster.modify i f }

/-- Carries a call to the replica that answers at an endpoint, now. -/
def deliver {α : Type} (t : Timeline) (e : Endpoint)
    (serve : Replica → Except Refusal α × Replica) : Except CallError α × Timeline :=
  let (answer, cluster) := t.cluster.deliver e serve
  (answer, { t with cluster })

/-! ### Periodic pushes -/

/-- Counts a push that failed at the replica that made it. -/
def countPush {α : Type} (t : Timeline) (node : Nat) : Except CallError α → Timeline
  | .ok _ => t
  | .error e => t.modify node (·.countFailure .absorb e)

/-- Sets a round aside until its wait is over. -/
def suspend (t : Timeline) (k : Nat) (wait : Nat) (round : Round) : Timeline :=
  { t with pushers := t.pushers.modify k fun p => { p with round := some round } }.arrange
    (t.now + wait) (.resume k)

/-- What went wrong, if anything did. -/
def error? {ε α : Type} : Except ε α → Option ε
  | .ok _ => none
  | .error e => some e

/-- Goes on with a round: calls the remaining peers until one has to be waited
for.  After the last of them the next round is arranged. -/
def pushOn (k node patience : Nat) (snapshot : Store) : List Endpoint → Timeline → Timeline
  | [], t =>
    match t.pushers[k]? with
    | none => t
    | some p =>
      { t with pushers := t.pushers.set k { p with round := none } }.arrange
        (max p.due t.now) (.tick k)
  | e :: rest, t =>
    match (t.link e).course patience e with
    | .served 0 =>
      let (answer, t) := t.deliver e (·.absorb snapshot)
      pushOn k node patience snapshot rest (t.countPush node answer)
    | .served (wait + 1) => t.suspend k (wait + 1) ⟨snapshot, .arrival e, rest⟩
    | .servedFirst wait heard =>
      let (answer, t) := t.deliver e (·.absorb snapshot)
      let error := if heard then error? answer else some (.timeout e.text)
      match wait with
      | 0 =>
        pushOn k node patience snapshot rest
          (match error with
            | none => t
            | some e => t.modify node (·.countFailure .absorb e))
      | wait + 1 => t.suspend k (wait + 1) ⟨snapshot, .outcome error, rest⟩
    | .lost 0 error =>
      pushOn k node patience snapshot rest (t.modify node (·.countFailure .absorb error))
    | .lost (wait + 1) error => t.suspend k (wait + 1) ⟨snapshot, .outcome (some error), rest⟩

/-- How late a round may begin without moving the following ones. -/
def tickTolerance : Nat := 5

/-- Begins a round.  It is passed over while the replica is out of service. -/
def tick (t : Timeline) (k : Nat) : Timeline :=
  match t.pushers[k]? with
  | none => t
  | some p =>
    let due := if p.due + tickTolerance < t.now then t.now + p.period else p.due + p.period
    let t := { t with pushers := t.pushers.set k { p with due } }
    match t.cluster.replicas[p.node]? with
    | none => t
    | some r =>
      if r.outage.down then t.arrange (max due t.now) (.tick k)
      else pushOn k p.node r.timeout r.store r.peers t

/-- Takes up a round whose wait is over. -/
def resume (t : Timeline) (k : Nat) : Timeline :=
  match t.pushers[k]? with
  | none => t
  | some p =>
    match p.round, t.cluster.replicas[p.node]? with
    | some round, some r =>
      let t :=
        match round.awaited with
        | .arrival e =>
          let (answer, t) := t.deliver e (·.absorb round.snapshot)
          t.countPush p.node answer
        | .outcome none => t
        | .outcome (some error) => t.modify p.node (·.countFailure .absorb error)
      pushOn k p.node r.timeout round.snapshot round.rest t
    | _, _ => t

/-! ### Time -/

/-- Does what has become due. -/
def wake (t : Timeline) : Wake → Timeline
  | .expire node episode => t.modify node fun r => { r with outage := r.outage.expire episode }
  | .tick k => t.tick k
  | .resume k => t.resume k

/-- Does one after the other what is due by a test, as long as the fuel lasts. -/
def wakeAll (due : Nat → Bool) : Nat → Timeline → Timeline
  | 0, t => t
  | fuel + 1, t =>
    match t.agenda with
    | [] => t
    | (moment, w) :: rest =>
      if due moment then
        wakeAll due fuel ({ t with agenda := rest, now := max t.now moment }.wake w)
      else t

/-- More than can become due until a moment: a periodic push has at most a round
and a wait in each millisecond, and catches up on a few rounds. -/
def fuelUntil (t : Timeline) (moment : Nat) : Nat :=
  (moment - t.now + 10) * 4 * (t.pushers.length + 1) + t.agenda.length

/-- Lets a caller wait.  A wait of no length is none. -/
def wait (t : Timeline) (ms : Nat) : Timeline :=
  if ms = 0 then t
  else
    let moment := t.now + ms
    { wakeAll (· < moment) (t.fuelUntil moment) t with now := moment }

/-- Lets time pass. -/
def sleep (t : Timeline) (ms : Nat) : Timeline :=
  let moment := t.now + ms
  { wakeAll (· ≤ moment) (t.fuelUntil moment) t with now := moment }

/-! ### Calls -/

/-- Carries a call to an endpoint, if that is what becomes of it. -/
def carry {α : Type} (course : Course) (e : Endpoint)
    (serve : Replica → Except Refusal α × Replica) (t : Timeline) :
    Except CallError α × Timeline :=
  match course with
  | .served wait => (t.wait wait).deliver e serve
  | .servedFirst wait heard =>
    let (answer, t) := t.deliver e serve
    (if heard then answer else .error (.timeout e.text), t.wait wait)
  | .lost wait error => (.error error, t.wait wait)

/-- Carries a call over the link to an endpoint. -/
def exchange {α : Type} (patience : Nat) (e : Endpoint)
    (serve : Replica → Except Refusal α × Replica) (t : Timeline) :
    Except CallError α × Timeline :=
  t.carry ((t.link e).course patience e) e serve

/-- What a replica finds around it; `r` is that replica. -/
def surroundings (i : Nat) (r : Replica) : Surroundings Timeline where
  self t := (t.cluster.replicas[i]?).getD r
  update f t := t.modify i f
  now t := t.now
  setTimer length episode t := t.arrange (t.now + length) (.expire i episode)
  replicate e key versions := exchange r.timeout e (·.replicate key versions)
  fetch e key := exchange r.timeout e (Cluster.serveFetch key)
  absorb e pushed := exchange r.timeout e (·.absorb pushed)

/-- Lets a replica push its store periodically, beginning one period from now.
Without a period there is nothing to begin. -/
def startPushing (t : Timeline) (node period : Nat) : Timeline :=
  if period = 0 then t
  else
    { t with pushers := t.pushers ++ [(⟨node, period, t.now + period, none⟩ : Pusher)] }.arrange
      (t.now + period) (.tick t.pushers.length)

/-- Gives a replica up for good. -/
def forget (t : Timeline) (i : Nat) : Timeline :=
  { t with
    gone := i :: t.gone
    cluster := { t.cluster with directory := t.cluster.directory.filter fun p => p.2 ≠ i } }

end Timeline

end QuorumStore
