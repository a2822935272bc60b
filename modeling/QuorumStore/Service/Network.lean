/-
Replicas that call one another over connections.

* `Network.dial`: a connection to a replica of a cluster, where one listens and
  a way leads to it;
* `Network.surroundings`: the calls of a replica over such connections;
* `Network.scripted`: connections to a server whose answers are laid down.
-/
import QuorumStore.Cluster.Basic
import QuorumStore.Service.Caller
import QuorumStore.Service.Session

namespace QuorumStore

namespace Network

/-- Whether a way leads to an endpoint; if not, what is in the way. -/
abbrev Reach := String → Option ConnectError

/-- The calls of a replica of a cluster over connections; `r` is that replica. -/
def surroundings (dial : Dial Cluster) (i : Nat) (r : Replica) : Surroundings Cluster where
  self c := (c.replicas[i]?).getD r
  update f c := c.modify i f
  now _ := 0
  setTimer _ _ c := c
  replicate e := Caller.replicate dial e.text
  fetch e := Caller.fetch dial e.text
  absorb e := Caller.absorb dial e.text

/-- The index of the replica that listens at an endpoint. -/
def listener? (c : Cluster) (peer : String) : Option Nat :=
  (c.directory.find? fun p => p.1.text = peer).map Prod.snd

/-- Sends bytes to a replica and gives the replies; its own calls are carried by
`onward`. -/
def converse (reach : Reach) (onward : Dial Cluster) : Dial Cluster := fun peer bs c =>
  match reach peer with
  | some cause => (.error cause, c)
  | none =>
    match listener? c peer with
    | none => (.error .refused, c)
    | some i =>
      match c.replicas[i]? with
      | none => (.error .refused, c)
      | some r =>
        let (lines, session, c) := Session.start.receive (surroundings onward i r) bs c
        (.ok ⟨Utf8.bytes (String.join lines), !session.isOpen⟩, c)

/-- A connection that is never made. -/
def unreachable {σ : Type} (cause : ConnectError) : Dial σ := fun _ _ s => (.error cause, s)

/-- A connection between peers.  What peers ask of one another is done without
any further call. -/
def peerDial (reach : Reach) : Dial Cluster :=
  converse reach (unreachable .refused)

/-- A connection to a replica, which may call its peers in turn. -/
def dial (reach : Reach) : Dial Cluster :=
  converse reach (peerDial reach)

/-- Connections to a server that answers the one after the other as laid down.
An answer that is missing is silence.  The state holds the answers to come and
the bytes received, last first; without an answer to come the connection is
closed at once. -/
def scripted : Dial (List (Option Bytes) × List Bytes) := fun _ bs (answers, received) =>
  match answers with
  | [] => (.ok ⟨[], true⟩, ([], bs :: received))
  | none :: rest => (.ok ⟨[], false⟩, (rest, bs :: received))
  | some answer :: rest => (.ok ⟨answer, true⟩, (rest, bs :: received))

end Network

end QuorumStore
