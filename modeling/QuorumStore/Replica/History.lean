/-
What happens to a replica, told without its peers.  It is asked for something, or
recovers from an outage.  Each request comes with the answers that the peers give to
the calls that it leads to, whatever these are.

* `Replica.act`: one event, and what came of it;
* `Replica.run`: one event after the other.
-/
import QuorumStore.Replica.Coordination

namespace QuorumStore

/-- What a peer answers if it is called. -/
structure Answer where
  /-- If it is asked to merge versions of a key. -/
  replicate : Except CallError Bool
  /-- If it is asked for its versions of a key. -/
  fetch : Except CallError Siblings
  /-- If it is asked to merge a store. -/
  absorb : Except CallError Unit

/-- A replica with the answers to its calls to come, the next one first.  Calls
without an answer of their own time out. -/
structure Answered where
  /-- The replica. -/
  replica : Replica
  /-- The answers. -/
  answers : List Answer

namespace Answered

/-- Hears what is answered to a call. -/
def hear {α : Type} (reply : Answer → Except CallError α) (e : Endpoint) (s : Answered) :
    Except CallError α × Answered :=
  match s.answers with
  | [] => (.error (.timeout e.text), s)
  | answer :: rest => (reply answer, { s with answers := rest })

/-- What a replica finds around it.  Outages do not end by themselves. -/
def surroundings : Surroundings Answered where
  self s := s.replica
  update change s := { s with replica := change s.replica }
  now _ := 0
  setTimer _ _ s := s
  replicate e _ _ := hear Answer.replicate e
  fetch e _ := hear Answer.fetch e
  absorb e _ := hear Answer.absorb e

end Answered

namespace Replica

/-- Something that happens to a replica. -/
inductive Event where
  /-- It is asked for something; the answers are those to its own calls. -/
  | request (request : Request) (answers : List Answer)
  /-- The timer of its outage fires. -/
  | recovery

/-- An event, and what came of it if it was a request. -/
def act (r : Replica) : Event → Option (Except Refusal Coordination.Outcome) × Replica
  | .request request answers =>
    let (outcome, s) := Coordination.perform Answered.surroundings request ⟨r, answers⟩
    (some outcome, s.replica)
  | .recovery => (none, { r with outage := r.outage.expire r.outage.episode })

/-- Events one after the other. -/
def run (r : Replica) (events : List Event) : Replica :=
  events.foldl (fun r e => (r.act e).2) r

/-- A run of two parts is a run of the first and then of the second. -/
theorem run_append (r : Replica) (first second : List Event) :
    r.run (first ++ second) = (r.run first).run second := by
  simp [run]

end Replica

end QuorumStore
