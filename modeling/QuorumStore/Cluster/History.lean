/-
What happens to a cluster, told without time.  A replica is asked for something,
recovers from an outage, or is cut off and attached again; each request comes
with the fates of the calls that it leads to.

* `Cluster.act`: one event, and what came of it;
* `Cluster.run`: one event after the other.
-/
import QuorumStore.Cluster.Basic

namespace QuorumStore

/-- What becomes of a call between replicas. -/
inductive Fate where
  /-- It is carried to whoever answers, and the caller hears the answer. -/
  | heard
  /-- It is never served, and the caller hears of a failure. -/
  | lost (error : CallError)
  /-- It is served, but the caller hears of a failure. -/
  | unheard (error : CallError)

/-- A cluster with the fates of the calls to come, the next one first.  Calls
without a fate of their own are heard. -/
structure Fated where
  /-- The replicas. -/
  cluster : Cluster
  /-- The fates. -/
  fates : List Fate

namespace Fated

/-- Carries a call as its fate has it. -/
def exchange {α : Type} (e : Endpoint) (serve : Replica → Except Refusal α × Replica) (f : Fated) :
    Except CallError α × Fated :=
  match f.fates.headD .heard with
  | .heard =>
    let (answer, cluster) := f.cluster.deliver e serve
    (answer, ⟨cluster, f.fates.tail⟩)
  | .lost error => (.error error, { f with fates := f.fates.tail })
  | .unheard error => (.error error, ⟨(f.cluster.deliver e serve).2, f.fates.tail⟩)

/-- What a replica finds around it; `r` is that replica.  Outages do not end by
themselves. -/
def surroundings (i : Nat) (r : Replica) : Surroundings Fated where
  self f := (f.cluster.replicas[i]?).getD r
  update change f := { f with cluster := f.cluster.modify i change }
  now _ := 0
  setTimer _ _ f := f
  replicate e key versions := exchange e (·.replicate key versions)
  fetch e key := exchange e (Cluster.serveFetch key)
  absorb e pushed := exchange e (·.absorb pushed)

end Fated

namespace Cluster

/-- Something that happens to a replica. -/
inductive Event where
  /-- It is asked for something; the fates are those of its own calls. -/
  | request (node : Nat) (request : Request) (fates : List Fate)
  /-- The timer of its outage fires. -/
  | recovery (node : Nat)
  /-- It is cut off. -/
  | detachment (node : Nat)
  /-- It answers at its endpoint again. -/
  | attachment (node : Nat)

/-- An event and what came of the request, if it was one to a replica that there
is. -/
def act (c : Cluster) : Event → Option (Except Refusal Coordination.Outcome) × Cluster
  | .request i request fates =>
    match c.replicas[i]? with
    | none => (none, c)
    | some r =>
      let (outcome, f) := Coordination.perform (Fated.surroundings i r) request ⟨c, fates⟩
      (some outcome, f.cluster)
  | .recovery i => (none, c.modify i fun r => { r with outage := r.outage.expire r.outage.episode })
  | .detachment i =>
    match c.replicas[i]? with
    | none => (none, c)
    | some r => (none, c.detach r.endpoint)
  | .attachment i => (none, c.attach i)

/-- Events one after the other. -/
def run (c : Cluster) (events : List Event) : Cluster :=
  events.foldl (fun c e => (c.act e).2) c

/-- A run of two parts is a run of the first and then of the second. -/
theorem run_append (c : Cluster) (first second : List Event) :
    c.run (first ++ second) = (c.run first).run second := by
  simp [run]

end Cluster

end QuorumStore
