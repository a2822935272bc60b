/-
What happens to a cluster in time.  A replica is asked for something, time passes, a link
changes, or a replica is cut off, attached again or given up.  Each request comes with the
courses of the calls that it leads to, whatever these are.

* `Timeline.act`: one event, and what was replied;
* `Timeline.run`: one event after the other.

There are no periodic pushes; what else may happen to a cluster while a replica serves a
request is told by `Busy`.
-/
import QuorumStore.Cluster.Timeline

namespace QuorumStore

/-- A cluster in time with the courses of the calls to come, the next one first.  Calls
without a course of their own take the one of their link. -/
structure Coursed where
  /-- The cluster. -/
  time : Timeline
  /-- The courses. -/
  courses : List Course

namespace Coursed

/-- Carries a call. -/
def exchange {α : Type} (patience : Nat) (e : Endpoint)
    (serve : Replica → Except Refusal α × Replica) (s : Coursed) : Except CallError α × Coursed :=
  let course := s.courses.headD ((s.time.link e).course patience e)
  let (answer, time) := s.time.carry course e serve
  (answer, ⟨time, s.courses.tail⟩)

/-- What a replica finds around it; `r` is that replica. -/
def surroundings (i : Nat) (r : Replica) : Surroundings Coursed where
  self s := (s.time.cluster.replicas[i]?).getD r
  update f s := { s with time := s.time.modify i f }
  now s := s.time.now
  setTimer length episode s :=
    { s with time := s.time.arrange (s.time.now + length) (.expire i episode) }
  replicate e key versions := exchange r.timeout e (·.replicate key versions)
  fetch e key := exchange r.timeout e (Cluster.serveFetch key)
  absorb e pushed := exchange r.timeout e (·.absorb pushed)

end Coursed

namespace Timeline

/-- Something that happens to a cluster. -/
inductive Event where
  /-- A replica is asked for something; the courses are those of its own calls. -/
  | request (node : Nat) (request : Request) (courses : List Course)
  /-- Time passes. -/
  | passage (ms : Nat)
  /-- A link changes. -/
  | link (endpoint : Endpoint) (link : Link)
  /-- A replica is cut off. -/
  | detachment (endpoint : Endpoint)
  /-- A replica answers at its endpoint again. -/
  | attachment (node : Nat)
  /-- A replica is given up for good. -/
  | farewell (node : Nat)

/-- An event, and what was replied if it was a request to a replica that there is. -/
def act (t : Timeline) : Event → Option Reply × Timeline
  | .request i request courses =>
    match t.replica? i with
    | none => (none, t)
    | some r =>
      let (reply, s) := Coordination.dispatch (Coursed.surroundings i r) request ⟨t, courses⟩
      (some reply, s.time)
  | .passage ms => (none, t.sleep ms)
  | .link e l => (none, t.setLink e l)
  | .detachment e => (none, { t with cluster := t.cluster.detach e })
  | .attachment i => (none, { t with cluster := t.cluster.attach i })
  | .farewell i => (none, t.forget i)

/-- Events one after the other. -/
def run (t : Timeline) (events : List Event) : Timeline :=
  events.foldl (fun t e => (t.act e).2) t

end Timeline

end QuorumStore
