/-
A cluster in which other things happen while a replica serves a request: outages begin and
end, other replicas write, read and push, and some are cut off.

* `Busy.exchange`: carries a call, with what happens before and after it is served.
-/
import QuorumStore.Cluster.History

namespace QuorumStore

/-- A call between replicas, and what else happens meanwhile. -/
structure Call where
  /-- What happens before it is served. -/
  before : List Cluster.Event
  /-- What becomes of it. -/
  fate : Fate
  /-- What happens before its caller goes on. -/
  after : List Cluster.Event

/-- A cluster while a replica makes calls. -/
structure Busy where
  /-- The replicas. -/
  cluster : Cluster
  /-- The calls to come, the next one first.  Those that are not listed are heard at once. -/
  calls : List Call
  /-- What has happened meanwhile. -/
  past : List Cluster.Event

namespace Busy

/-- Carries a call. -/
def exchange {α : Type} (e : Endpoint) (serve : Replica → Except Refusal α × Replica) (b : Busy) :
    Except CallError α × Busy :=
  let call := b.calls.headD ⟨[], .heard, []⟩
  let (answer, f) := Fated.exchange e serve ⟨b.cluster.run call.before, [call.fate]⟩
  (answer, ⟨f.cluster.run call.after, b.calls.tail, b.past ++ (call.before ++ call.after)⟩)

/-- What a replica finds around it; `r` is that replica. -/
def surroundings (i : Nat) (r : Replica) : Surroundings Busy where
  self b := (b.cluster.replicas[i]?).getD r
  update change b := { b with cluster := b.cluster.modify i change }
  now _ := 0
  setTimer _ _ b := b
  replicate e key versions := exchange e (·.replicate key versions)
  fetch e key := exchange e (Cluster.serveFetch key)
  absorb e pushed := exchange e (·.absorb pushed)

end Busy

end QuorumStore
