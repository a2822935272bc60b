/-
What is wrong with a configuration that can be read.

* `Config.problems`: everything that is wrong, in a fixed order;
* `Problem.message`: the wording of each.
-/
import QuorumStore.Config.Basic

namespace QuorumStore

/-- The quorums by the names of their settings. -/
inductive QuorumSetting where
  | write
  | read
  deriving DecidableEq

/-- The name of a setting. -/
def QuorumSetting.name : QuorumSetting → String
  | write => "write_quorum"
  | read => "read_quorum"

/-- Something that is wrong with a configuration. -/
inductive Problem where
  /-- There is no replica. -/
  | noNodes
  /-- A quorum is zero. -/
  | zeroQuorum (setting : QuorumSetting)
  /-- A quorum is larger than the cluster. -/
  | quorumTooLarge (setting : QuorumSetting) (value nodes : Nat)
  /-- There is no time to wait for a peer. -/
  | zeroTimeout
  /-- A replica has no name or no address. -/
  | emptyField (endpoint : String)
  /-- A replica has the name of an earlier one. -/
  | duplicateId (id : String)
  /-- A replica listens where an earlier one does. -/
  | duplicateEndpoint (endpoint : String)
  deriving DecidableEq

/-- The wording of a problem. -/
def Problem.message : Problem → String
  | noNodes => "at least one [[node]] is required"
  | zeroQuorum setting => "cluster." ++ setting.name ++ " must be at least 1"
  | quorumTooLarge setting value nodes =>
    "cluster." ++ setting.name ++ " = " ++ toString value ++ " exceeds the " ++ toString nodes ++
      " configured nodes"
  | zeroTimeout => "cluster.rpc_timeout_ms must be greater than 0"
  | emptyField endpoint => "node '" ++ endpoint ++ "' has an empty id or address"
  | duplicateId id => "node id '" ++ id ++ "' is used more than once"
  | duplicateEndpoint endpoint => "node endpoint '" ++ endpoint ++ "' is used more than once"

namespace Config

/-- What is wrong with a quorum. -/
def quorumProblems (nodes : Nat) (setting : QuorumSetting) (value : Nat) : List Problem :=
  if value = 0 then [.zeroQuorum setting]
  else if 0 < nodes ∧ nodes < value then [.quorumTooLarge setting value nodes]
  else []

/-- What is wrong with replicas, given the names and endpoints of those before
them.  Endpoints are compared by their texts. -/
def nodeProblems (ids endpoints : List String) : List NodeConfig → List Problem
  | [] => []
  | n :: rest =>
    (if n.id = "" ∨ n.address = "" then [.emptyField n.endpoint.text] else []) ++
    (if n.id ∈ ids then [.duplicateId n.id] else []) ++
    (if n.endpoint.text ∈ endpoints then [.duplicateEndpoint n.endpoint.text] else []) ++
    nodeProblems (n.id :: ids) (n.endpoint.text :: endpoints) rest

/-- Everything that is wrong with a configuration. -/
def problems (c : Config) : List Problem :=
  (if c.nodes = [] then [.noNodes] else []) ++
  quorumProblems c.nodes.length .write c.writeQuorum ++
  quorumProblems c.nodes.length .read c.readQuorum ++
  (if c.timeout = 0 then [.zeroTimeout] else []) ++
  nodeProblems [] [] c.nodes

end Config

end QuorumStore
