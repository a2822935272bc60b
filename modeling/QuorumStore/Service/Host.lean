/-
A process that runs replicas and serves one client of one of them.

* `Host.start`: begins with the replicas that were launched;
* `Host.elapse`: lets time pass;
* `Host.receive` and `Host.hangUp`: what the client sends, and its end.
-/
import QuorumStore.Cluster.Timeline
import QuorumStore.Launch
import QuorumStore.Service.Session

namespace QuorumStore

/-- A process that runs replicas. -/
structure Host where
  /-- The replicas in time. -/
  time : Timeline
  /-- The replica that serves the client. -/
  node : Nat
  /-- The connection of the client. -/
  session : Session

namespace Host

/-- Begins with replicas that push their stores as the configuration says. -/
def start (config : Config) (cluster : Cluster) : Host :=
  let time := match config.pushInterval with
    | none => Timeline.start cluster
    | some seconds =>
      (List.range cluster.replicas.length).foldl (fun t i => t.startPushing i (seconds * 1000))
        (Timeline.start cluster)
  ⟨time, 0, Session.start⟩

/-- Lets time pass until a moment. -/
def elapse (h : Host) (moment : Nat) : Host :=
  { h with time := h.time.sleep (moment - h.time.now) }

/-- Lets the client's replica do something on its connection. -/
def serve (act : Surroundings Timeline → Session → Timeline → List String × Session × Timeline)
    (h : Host) : List String × Host :=
  match h.time.replica? h.node with
  | none => ([], h)
  | some r =>
    let (lines, session, time) := act (Timeline.surroundings h.node r) h.session h.time
    (lines, { h with time, session })

/-- Takes in what the client sends, and gives the replies. -/
def receive (bs : Bytes) (h : Host) : List String × Host :=
  serve (fun env => Session.receive env bs) h

/-- The client sends no more. -/
def hangUp (h : Host) : List String × Host :=
  serve Session.hangUp h

end Host

end QuorumStore
