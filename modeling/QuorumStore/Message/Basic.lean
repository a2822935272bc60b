/-
The questions that replicas and clients put to a replica, and the answers.
Clients write, read, gossip and administer; replicas replicate, fetch and absorb
among themselves.
-/
import QuorumStore.Failure
import QuorumStore.Ring
import QuorumStore.Store

namespace QuorumStore

/-- The kinds of calls. -/
inductive Method where
  /-- A client's write. -/
  | put
  /-- A client's read. -/
  | get
  /-- Merging versions of a key, for a peer. -/
  | replicate
  /-- Reading the local versions of a key, for a peer. -/
  | fetch
  /-- Merging a whole store, for a peer. -/
  | absorb
  /-- Pushing the store to all peers. -/
  | gossip
  /-- Going out of service for a while. -/
  | crash
  /-- Taking over a preference list. -/
  | assignList
  deriving DecidableEq

namespace Method

/-- The label that calls of a kind are counted under. -/
def label : Method → String
  | put => "Put"
  | get => "Get"
  | replicate => "S_Put"
  | fetch => "S_Get"
  | absorb => "S_Gossip"
  | gossip => "Gossip"
  | crash => "Crash"
  | assignList => "SendPreferenceList"

/-- The name of a kind in a message. -/
def tag : Method → String
  | put => "Put"
  | get => "Get"
  | replicate => "SPut"
  | fetch => "SGet"
  | absorb => "SGossip"
  | gossip => "Gossip"
  | crash => "Crash"
  | assignList => "SendPreferenceList"

/-- All kinds of calls. -/
def all : List Method :=
  [put, get, replicate, fetch, absorb, gossip, crash, assignList]

/-- The kind that a message names. -/
def ofTag? (name : String) : Option Method :=
  all.find? fun m => m.tag = name

end Method

/-- A call with what it is about. -/
inductive Request where
  | put (key : String) (context : Clock) (value : Bytes)
  | get (key : String)
  | replicate (key : String) (versions : Siblings)
  | fetch (key : String)
  | absorb (pushed : Store)
  | gossip
  | crash (seconds : UInt64)
  | assignList (list : List Endpoint)

/-- The kind of a request. -/
def Request.method : Request → Method
  | put .. => .put
  | get .. => .get
  | replicate .. => .replicate
  | fetch .. => .fetch
  | absorb .. => .absorb
  | gossip => .gossip
  | crash .. => .crash
  | assignList .. => .assignList

/-- The answer to a call that succeeded, one form for each kind. -/
inductive Response where
  | put (ok : Bool)
  | get (versions : Siblings)
  | replicate (stored : Bool)
  | fetch (versions : Siblings)
  | absorb
  | gossip
  | crash (ok : Bool)
  | assignList

/-- The kind of a response. -/
def Response.method : Response → Method
  | put .. => .put
  | get .. => .get
  | replicate .. => .replicate
  | fetch .. => .fetch
  | absorb => .absorb
  | gossip => .gossip
  | crash .. => .crash
  | assignList => .assignList

namespace Response

/-- Whether a write was taken, if a response says so. -/
def put? : Response → Option Bool
  | put ok => some ok
  | _ => none

/-- The versions read, if a response brings them. -/
def get? : Response → Option Siblings
  | get versions => some versions
  | _ => none

/-- Whether replicated versions were new, if a response says so. -/
def replicate? : Response → Option Bool
  | replicate stored => some stored
  | _ => none

/-- The local versions, if a response brings them. -/
def fetch? : Response → Option Siblings
  | fetch versions => some versions
  | _ => none

/-- Whether a response confirms that a store was merged. -/
def absorb? : Response → Option Unit
  | absorb => some ()
  | _ => none

/-- Whether a response confirms that a store was pushed. -/
def gossip? : Response → Option Unit
  | gossip => some ()
  | _ => none

/-- Whether an outage was begun, if a response says so. -/
def crash? : Response → Option Bool
  | crash ok => some ok
  | _ => none

/-- Whether a response confirms that a list was taken over. -/
def assignList? : Response → Option Unit
  | assignList => some ()
  | _ => none

end Response

/-- What comes back from a call. -/
abbrev Reply := Except Fault Response

end QuorumStore
