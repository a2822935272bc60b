/-
Calls to a replica over a connection of their own.

* `Caller.call`: makes a connection, sends a request and waits for the reply;
* `Caller.put` and the others: such a call, of which the one fitting answer is
  expected;
* `Caller.absorb`: pushes a store in as many calls as frames require, one after
  the other until one fails.
-/
import QuorumStore.Batch
import QuorumStore.Frame

namespace QuorumStore

/-- What comes back over a connection. -/
structure Incoming where
  /-- The bytes. -/
  bytes : Bytes
  /-- Whether the other side then hangs up; otherwise it stays silent. -/
  ended : Bool

/-- Makes a connection to an endpoint, sends bytes and gives what comes back. -/
abbrev Dial (σ : Type) := String → Bytes → σ → Except ConnectError Incoming × σ

namespace Caller

variable {σ α : Type}

/-- What a reply means to a caller. -/
def settle : Option (Except FrameError Reply) → Option (Except CallError Response)
  | none => none
  | some (.error e) => some (.error (.protocol e))
  | some (.ok (.error fault)) => some (.error (.remote fault))
  | some (.ok (.ok response)) => some (.ok response)

/-- The reply among what comes back. -/
def reply (peer : String) (incoming : Incoming) : Except CallError Response :=
  let (first, d) := (Decoder.empty.feed incoming.bytes).next Reply.parse?
  match settle first with
  | some r => r
  | none =>
    if incoming.ended then
      match settle (d.last Reply.parse?).1 with
      | some r => r
      | none => .error .closed
    else .error (.timeout peer)

/-- Makes a connection, sends a request and waits for the reply.  A request that
does not fit into a frame is found out after the connection has been made. -/
def call (dial : Dial σ) (peer : String) (request : Request) (s : σ) :
    Except CallError Response × σ :=
  match Frame.encode request.toJson with
  | .ok line =>
    match dial peer (Utf8.bytes line) s with
    | (.error cause, s) => (.error (.unreachable peer cause), s)
    | (.ok incoming, s) => (reply peer incoming, s)
  | .error e =>
    match dial peer [] s with
    | (.error cause, s) => (.error (.unreachable peer cause), s)
    | (.ok _, s) => (.error (.protocol e), s)

/-- A call of which an answer of its own kind is expected. -/
def ask (dial : Dial σ) (peer : String) (request : Request) (take : Response → Option α) (s : σ) :
    Except CallError α × σ :=
  match call dial peer request s with
  | (.error e, s) => (.error e, s)
  | (.ok response, s) =>
    match take response with
    | some a => (.ok a, s)
    | none => (.error (.unexpectedReply request.method.label), s)

/-- Writes a value. -/
def put (dial : Dial σ) (peer key : String) (context : Clock) (value : Bytes) (s : σ) :
    Except CallError Bool × σ :=
  ask dial peer (.put key context value) Response.put? s

/-- Reads a key. -/
def get (dial : Dial σ) (peer key : String) (s : σ) : Except CallError Siblings × σ :=
  ask dial peer (.get key) Response.get? s

/-- Has versions of a key merged. -/
def replicate (dial : Dial σ) (peer key : String) (versions : Siblings) (s : σ) :
    Except CallError Bool × σ :=
  ask dial peer (.replicate key versions) Response.replicate? s

/-- Reads the local versions of a key. -/
def fetch (dial : Dial σ) (peer key : String) (s : σ) : Except CallError Siblings × σ :=
  ask dial peer (.fetch key) Response.fetch? s

/-- Pushes the parts of a store in turn. -/
def absorbParts (dial : Dial σ) (peer : String) : List Store → σ → Except CallError Unit × σ
  | [], s => (.ok (), s)
  | part :: rest, s =>
    match ask dial peer (.absorb part) Response.absorb? s with
    | (.ok (), s) => absorbParts dial peer rest s
    | (.error e, s) => (.error e, s)

/-- Pushes keys with their versions, taken in the given order.  A key that does
not fit into a frame is found out before any connection is made. -/
def absorbPairs (dial : Dial σ) (peer : String) (pairs : List (String × Siblings)) (s : σ) :
    Except CallError Unit × σ :=
  match Batch.splitPairs Frame.maxLength pairs with
  | .error e => (.error (.protocol e), s)
  | .ok parts => absorbParts dial peer parts s

/-- Pushes a store. -/
def absorb (dial : Dial σ) (peer : String) (pushed : Store) (s : σ) : Except CallError Unit × σ :=
  absorbPairs dial peer pushed.entries s

/-- Has a replica push its store to its peers. -/
def gossip (dial : Dial σ) (peer : String) (s : σ) : Except CallError Unit × σ :=
  ask dial peer .gossip Response.gossip? s

/-- Puts a replica out of service for some seconds. -/
def crash (dial : Dial σ) (peer : String) (seconds : UInt64) (s : σ) : Except CallError Bool × σ :=
  ask dial peer (.crash seconds) Response.crash? s

/-- Gives a replica a preference list. -/
def assignList (dial : Dial σ) (peer : String) (list : List Endpoint) (s : σ) :
    Except CallError Unit × σ :=
  ask dial peer (.assignList list) Response.assignList? s

end Caller

end QuorumStore
