/-
How peers deal with calls, told without the patience of their callers.

* `Conduct`: when a call is served, what comes back of it, and when;
* `Conduct.carry`: what that comes to for a caller that waits for so long and no longer;
* `Conducted.surroundings`: the calls of a replica, each with a conduct of its own, and a
  record of them.

A caller that gives up drops the call: what has not been served by then is not served later.
-/
import QuorumStore.Cluster.Timeline

namespace QuorumStore

/-- What comes back of a call that has been served. -/
inductive Echo where
  /-- The answer, after a while. -/
  | answer (ms : Nat)
  /-- That the call failed, after a while. -/
  | failure (ms : Nat) (error : CallError)
  /-- Nothing. -/
  | silence

/-- How a peer deals with a call. -/
inductive Conduct where
  /-- The call is served after a while. -/
  | served (arrival : Nat) (echo : Echo)
  /-- The call fails after a while without having been served. -/
  | failed (ms : Nat) (error : CallError)
  /-- The call is never served, and does not end. -/
  | stalled

/-- How a peer deals with calls over a link. -/
def Link.conduct : Link → Conduct
  | prompt => .served 0 (.answer 0)
  | stalled => .stalled
  | delayed ms => .served ms (.answer 0)
  | late ms => .served 0 (.answer ms)
  | failing error => .failed 0 error

namespace Conduct

/-- How long a call takes if its caller waits until it ends.  Some calls do not end. -/
def delay? : Conduct → Option Nat
  | served arrival (.answer ms) => some (arrival + ms)
  | served arrival (.failure ms _) => some (arrival + ms)
  | served _ .silence => none
  | failed ms _ => some ms
  | stalled => none

/-- How long a call takes if its caller gives up when its patience ends. -/
def time (patience : Nat) (c : Conduct) : Nat :=
  match c.delay? with
  | some ms => min ms patience
  | none => patience

/-- Whether a call would take longer than its caller waits. -/
def late (patience : Nat) (c : Conduct) : Bool :=
  match c.delay? with
  | some ms => patience < ms
  | none => true

/-- Whether a call is served before its caller gives up. -/
def reaches (patience : Nat) : Conduct → Bool
  | served arrival _ => arrival ≤ patience
  | _ => false

end Conduct

/-! ### Calls -/

/-- What comes back of a call that has been served, and after how long. -/
def Echo.brings {α : Type} (answer : Except CallError α) : Echo → Option (Nat × Except CallError α)
  | .answer ms => some (ms, answer)
  | failure ms error => some (ms, .error error)
  | silence => none

/-- Lets a caller wait for what is to come, if anything is, until its patience ends. -/
def Timeline.await {α : Type} (patience : Nat) (e : Endpoint)
    (coming : Option (Nat × Except CallError α)) (t : Timeline) : Except CallError α × Timeline :=
  match coming with
  | some (ms, answer) =>
    if ms ≤ patience then (answer, t.wait ms) else (.error (.timeout e.text), t.wait patience)
  | none => (.error (.timeout e.text), t.wait patience)

/-- Carries a call to an endpoint.  What comes at the last moment comes in time. -/
def Conduct.carry {α : Type} (patience : Nat) (e : Endpoint)
    (serve : Replica → Except Refusal α × Replica) (t : Timeline) :
    Conduct → Except CallError α × Timeline
  | served arrival echo =>
    if arrival ≤ patience then
      let (answer, t) := (t.wait arrival).deliver e serve
      t.await (patience - arrival) e (echo.brings answer)
    else t.await patience e none
  | failed ms error => t.await patience e (some (ms, .error error))
  | stalled => t.await patience e none

/-- A call that was made. -/
structure Attempt where
  /-- The peer that was called. -/
  peer : Endpoint
  /-- How it dealt with the call. -/
  conduct : Conduct
  /-- What went wrong, if anything did. -/
  failure : Option CallError

/-- Whether nothing went wrong. -/
def Attempt.succeeded (a : Attempt) : Bool :=
  a.failure.isNone

/-- A cluster in time while a replica makes calls. -/
structure Conducted where
  /-- The cluster. -/
  time : Timeline
  /-- How peers deal with the calls to come, the next one first.  Calls that are not listed
  fare as their links say. -/
  conducts : List Conduct
  /-- The calls that were made, the first one first. -/
  attempts : List Attempt

namespace Conducted

/-- How a peer deals with the next call. -/
def next (s : Conducted) (e : Endpoint) : Conduct :=
  s.conducts.headD (s.time.link e).conduct

/-- Carries a call. -/
def exchange {α : Type} (patience : Nat) (e : Endpoint)
    (serve : Replica → Except Refusal α × Replica) (s : Conducted) :
    Except CallError α × Conducted :=
  let (answer, time) := (s.next e).carry patience e serve s.time
  (answer, ⟨time, s.conducts.tail, s.attempts ++ [⟨e, s.next e, Timeline.error? answer⟩]⟩)

/-- What a replica finds around it; `r` is that replica. -/
def surroundings (i : Nat) (r : Replica) : Surroundings Conducted where
  self s := (s.time.cluster.replicas[i]?).getD r
  update f s := { s with time := s.time.modify i f }
  now s := s.time.now
  setTimer length episode s :=
    { s with time := s.time.arrange (s.time.now + length) (.expire i episode) }
  replicate e key versions := exchange r.timeout e (·.replicate key versions)
  fetch e key := exchange r.timeout e (Cluster.serveFetch key)
  absorb e pushed := exchange r.timeout e (·.absorb pushed)

end Conducted

end QuorumStore
