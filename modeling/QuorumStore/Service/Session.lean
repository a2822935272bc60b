/-
One connection, as the replica that serves it sees it.

* `Session.receive`: takes in bytes and serves the requests that are complete;
* `Session.hangUp`: serves what is left when no more bytes will come.

Requests are served in order, one reply each.  The first line that is no request
ends the session: it is answered by a reason, unless its bytes are not text.  A
reply that does not fit into a frame ends the session without being sent.

How the reason is worded belongs to the reader of messages, so what is done with
it is said for every wording: `receiveWith`, `hangUpWith` and `serveWith`.
-/
import QuorumStore.Frame
import QuorumStore.Replica.Coordination

namespace QuorumStore

/-- How a connection stands. -/
inductive Session.State where
  /-- Requests are taken. -/
  | live
  /-- It was ended after a line that was no request. -/
  | closed
  /-- It broke off. -/
  | failed (error : FrameError)
  deriving DecidableEq, Inhabited

/-- A connection that is being served. -/
structure Session where
  /-- The bytes that have not been read. -/
  decoder : Decoder
  /-- How it stands. -/
  state : Session.State
  deriving DecidableEq, Inhabited

namespace Session

variable {σ : Type}

/-- A connection that has just been made. -/
def start : Session := ⟨.empty, .live⟩

/-- Whether requests are still taken. -/
def isOpen (c : Session) : Bool :=
  c.state = .live

/-- Sends a reply and goes on in the given state; a reply that is too long breaks
the session off. -/
def send (c : Session) (reply : Reply) (state : State) : List String × Session :=
  match Frame.encode reply.toJson with
  | .ok line => ([line], { c with state })
  | .error e => ([], { c with state := .failed e })

section

variable (wording : FrameError → String)

/-- Serves what a step of the decoder gives until it gives nothing. -/
def pump (step : Decoder → Option (Except FrameError Request) × Decoder) (env : Surroundings σ) :
    Nat → Session → σ → List String × Session × σ
  | 0, c, s => ([], c, s)
  | fuel + 1, c, s =>
    match step c.decoder with
    | (none, decoder) => ([], { c with decoder }, s)
    | (some (.error .notText), decoder) => ([], ⟨decoder, .failed .notText⟩, s)
    | (some (.error e), decoder) =>
      let (lines, c) := { c with decoder }.send (.error (.badRequest (wording e))) .closed
      (lines, c, s)
    | (some (.ok request), decoder) =>
      let (reply, s) := Coordination.dispatch env request s
      let (lines, c) := { c with decoder }.send reply .live
      if c.isOpen then
        let (more, c, s) := pump step env fuel c s
        (lines ++ more, c, s)
      else (lines, c, s)

/-- Takes in bytes and serves the requests that are complete.  A request takes a
byte at least, so there are no more requests than bytes. -/
def receiveWith (env : Surroundings σ) (bs : Bytes) (c : Session) (s : σ) :
    List String × Session × σ :=
  if c.isOpen then
    let c := { c with decoder := c.decoder.feed bs }
    pump wording (Decoder.next Request.parse?) env (c.decoder.buffer.length + 1) c s
  else ([], c, s)

/-- Serves what is left when no more bytes will come. -/
def hangUpWith (env : Surroundings σ) (c : Session) (s : σ) : List String × Session × σ :=
  if c.isOpen then
    pump wording (Decoder.last Request.parse?) env (c.decoder.buffer.length + 1) c s
  else ([], c, s)

/-- Serves a connection that brings bytes in several pieces and is then closed
by the other side. -/
def serveWith (env : Surroundings σ) : List Bytes → Session → σ → List String × Session × σ
  | [], c, s => hangUpWith wording env c s
  | bs :: rest, c, s =>
    let (lines, c, s) := receiveWith wording env bs c s
    let (more, c, s) := serveWith env rest c s
    (lines ++ more, c, s)

end

/-- Takes in bytes, with the wording of a replica. -/
def receive (env : Surroundings σ) : Bytes → Session → σ → List String × Session × σ :=
  receiveWith FrameError.message env

/-- Serves what is left, with the wording of a replica. -/
def hangUp (env : Surroundings σ) : Session → σ → List String × Session × σ :=
  hangUpWith FrameError.message env

/-- Serves a connection, with the wording of a replica. -/
def serve (env : Surroundings σ) : List Bytes → Session → σ → List String × Session × σ :=
  serveWith FrameError.message env

end Session

end QuorumStore
