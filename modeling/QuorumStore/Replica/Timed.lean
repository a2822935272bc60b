/-
What happens to a replica in time, told without its peers.  Each outage has a timer of
its own.  It is set when the outage begins, and fires once, at any moment after it has
become due.

* `Timed.act`: one event, and what came of it;
* `Timed.run`: one event after the other.
-/
import QuorumStore.Replica.History

namespace QuorumStore

/-- A timer that was set for an outage. -/
structure Timer where
  /-- The outage that it is to end. -/
  episode : Nat
  /-- When it is due. -/
  due : Nat
  /-- Whether it has fired. -/
  fired : Bool
  deriving DecidableEq

/-- A replica with its clock and its timers. -/
structure Timed where
  /-- The replica. -/
  replica : Replica
  /-- The time in milliseconds. -/
  now : Nat
  /-- The timers in the order in which they were set. -/
  timers : List Timer
  /-- The calls that the replica has made, last first. -/
  calls : List (Method × Endpoint)

namespace Timed

/-- A replica that was never out of service. -/
def start (r : Replica) : Timed :=
  ⟨{ r with outage := .none }, 0, [], []⟩

/-- A replica that serves a request, with the answers to its calls to come.  Calls
without an answer of their own time out. -/
structure Serving where
  /-- The replica. -/
  timed : Timed
  /-- The answers, the next one first. -/
  answers : List Answer

namespace Serving

/-- Makes a call. -/
def call {α : Type} (method : Method) (reply : Answer → Except CallError α) (e : Endpoint)
    (s : Serving) : Except CallError α × Serving :=
  ((s.answers.head?.map reply).getD (.error (.timeout e.text)),
    ⟨{ s.timed with calls := (method, e) :: s.timed.calls }, s.answers.tail⟩)

/-- What the replica finds around it. -/
def surroundings : Surroundings Serving where
  self s := s.timed.replica
  update change s := { s with timed := { s.timed with replica := change s.timed.replica } }
  now s := s.timed.now
  setTimer length episode s := { s with timed := { s.timed with
    timers := s.timed.timers ++ [⟨episode, s.timed.now + length, false⟩] } }
  replicate e _ _ := call .replicate Answer.replicate e
  fetch e _ := call .fetch Answer.fetch e
  absorb e _ := call .absorb Answer.absorb e

end Serving

/-- Something that happens to a replica. -/
inductive Event where
  /-- It is asked for something; the answers are those to its own calls. -/
  | request (request : Request) (answers : List Answer)
  /-- It is to go out of service for some milliseconds. -/
  | crash (duration : Nat)
  /-- Time passes. -/
  | passage (ms : Nat)
  /-- The timer at an index fires, if it is due and has not fired yet. -/
  | firing (k : Nat)

/-- A timer fires. -/
def fire (t : Timed) (k : Nat) : Timed :=
  match t.timers[k]? with
  | none => t
  | some timer =>
    if timer.fired ∨ t.now < timer.due then t
    else { t with
      replica := { t.replica with outage := t.replica.outage.expire timer.episode }
      timers := t.timers.set k { timer with fired := true } }

/-- An event, and what came of it if the replica was asked for something. -/
def act (t : Timed) : Event → Option (Except Refusal Coordination.Outcome) × Timed
  | .request request answers =>
    let (outcome, s) := Coordination.perform Serving.surroundings request ⟨t, answers⟩
    (some outcome, s.timed)
  | .crash duration =>
    let (outcome, s) := Coordination.crashFor Serving.surroundings duration ⟨t, []⟩
    (some (outcome.map .crash), s.timed)
  | .passage ms => (none, { t with now := t.now + ms })
  | .firing k => (none, t.fire k)

/-- Events one after the other. -/
def run (t : Timed) (events : List Event) : Timed :=
  events.foldl (fun t e => (t.act e).2) t

end Timed

end QuorumStore
