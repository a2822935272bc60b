/-
Endpoints and the order in which a replica turns to its peers.

* `Ring.rotate` moves the first member to the end;
* `Ring.startingAt` gives the ring rotated as often as the index says, which is
  the preference list of the replica at that index.
-/

namespace QuorumStore

/-- Where a replica listens; this is also what identifies it. -/
structure Endpoint where
  /-- The name or number of the host. -/
  address : String
  /-- The port on that host. -/
  port : UInt16
  deriving DecidableEq, Inhabited

namespace Endpoint

/-- The address and the port, separated by a colon. -/
def text (e : Endpoint) : String :=
  e.address ++ ":" ++ toString e.port.toNat

/-- The order by address, then by port. -/
def atMost (a b : Endpoint) : Bool :=
  if a.address < b.address then true
  else if b.address < a.address then false
  else a.port ≤ b.port

/-- Endpoints in ascending order. -/
def sort (l : List Endpoint) : List Endpoint :=
  l.mergeSort atMost

end Endpoint

instance : ToString Endpoint := ⟨Endpoint.text⟩

namespace Ring

variable {α : Type}

/-- The list with its first member moved to the end. -/
def rotate : List α → List α
  | [] => []
  | x :: rest => rest ++ [x]

/-- The list rotated as often as the index says. -/
def startingAt (ring : List α) (index : Nat) : List α :=
  let k := index % ring.length
  ring.drop k ++ ring.take k

end Ring

end QuorumStore
