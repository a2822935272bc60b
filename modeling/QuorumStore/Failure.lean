/-
What can go wrong, by cause.

* `Refusal`: why a replica does not do what it is asked;
* `Fault`: what a reply says of that, or of a request that was no request;
* `FrameError`: why a line of a stream is not a message;
* `CallError`: why a call to another replica brought no answer.

Each has one wording, and those that are counted have a short code.
-/

namespace QuorumStore

/-- Why a replica does not do what it is asked. -/
inductive Refusal where
  /-- It is out of service. -/
  | crashed
  /-- The write adds nothing to what it holds. -/
  | stale
  /-- It knows no version of the key. -/
  | notFound (key : String)
  deriving DecidableEq

namespace Refusal

/-- The wording of a refusal. -/
def message : Refusal → String
  | crashed => "server crashed"
  | stale => "object version out of date"
  | notFound key => "no such value: " ++ key

/-- The code that a refusal is counted under. -/
def code : Refusal → String
  | crashed => "server_crash"
  | stale => "stale_version"
  | notFound _ => "not_found"

end Refusal

/-- What a reply says of a call that failed. -/
inductive Fault where
  | crashed
  | stale
  | notFound
  /-- The request could not be read. -/
  | badRequest (reason : String)
  deriving DecidableEq

namespace Fault

/-- The fault that reports a refusal; the key is left out. -/
def ofRefusal : Refusal → Fault
  | .crashed => crashed
  | .stale => stale
  | .notFound _ => notFound

/-- The wording of a fault. -/
def message : Fault → String
  | crashed => "server crashed"
  | stale => "object version out of date"
  | notFound => "no such value"
  | badRequest reason => "bad request: " ++ reason

/-- The code that a fault is counted under. -/
def code : Fault → String
  | crashed => "server_crash"
  | stale => "stale_version"
  | notFound => "not_found"
  | badRequest _ => "bad_request"

end Fault

/-- Why a line of a stream is not a message. -/
inductive FrameError where
  /-- Its bytes are not UTF-8. -/
  | notText
  /-- It is longer than a frame may be. -/
  | tooLong (limit : Nat)
  /-- It does not spell a message. -/
  | malformed
  deriving DecidableEq

namespace FrameError

/-- The wording of a frame error. -/
def message : FrameError → String
  | notText => "io error: Unable to decode input as UTF8"
  | tooLong limit => "frame exceeds " ++ toString limit ++ " bytes"
  | malformed => "malformed frame"

end FrameError

/-- Why no connection could be made. -/
inductive ConnectError where
  /-- No replica is known at the endpoint. -/
  | noSuchNode
  /-- Nothing listens at the endpoint. -/
  | refused
  /-- No way leads to the endpoint. -/
  | networkUnreachable
  deriving DecidableEq

namespace ConnectError

/-- The wording of a failed connection. -/
def message : ConnectError → String
  | noSuchNode => "no such node"
  | refused => "Connection refused (os error 111)"
  | networkUnreachable => "Network is unreachable (os error 101)"

end ConnectError

/-- Why a call brought no answer. -/
inductive CallError where
  /-- The peer could not be reached. -/
  | unreachable (peer : String) (cause : ConnectError)
  /-- The peer took too long. -/
  | timeout (peer : String)
  /-- What was sent or came back is no frame. -/
  | protocol (cause : FrameError)
  /-- The peer hung up. -/
  | closed
  /-- The peer reported a fault. -/
  | remote (fault : Fault)
  /-- The peer answered another question. -/
  | unexpectedReply (method : String)
  deriving DecidableEq

namespace CallError

/-- The wording of a failed call. -/
def message : CallError → String
  | unreachable peer cause => "peer " ++ peer ++ " unreachable: " ++ cause.message
  | timeout peer => "peer " ++ peer ++ " did not answer in time"
  | protocol cause => "protocol error: " ++ cause.message
  | closed => "connection closed before a reply arrived"
  | remote fault => "remote error: " ++ fault.message
  | unexpectedReply method => "unexpected reply to " ++ method

/-- The code that a failed call is counted under. -/
def code : CallError → String
  | unreachable _ _ => "unreachable"
  | timeout _ => "timeout"
  | protocol _ => "protocol"
  | closed => "closed"
  | remote fault => fault.code
  | unexpectedReply _ => "unexpected_reply"

end CallError

end QuorumStore
