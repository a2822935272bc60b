/-
Starting the replicas of a configuration.

* `Launch.launch`: the replicas that are started, all of them or the one that
  is asked for.
-/
import QuorumStore.Cluster.Basic
import QuorumStore.Config.Basic

namespace QuorumStore

/-- Why the replicas are not started. -/
inductive LaunchError where
  /-- The one that is asked for is not configured. -/
  | notConfigured (id : String)
  /-- One cannot listen at its endpoint. -/
  | cannotBind (endpoint : Endpoint)
  deriving DecidableEq

/-- The wording of a failed start. -/
def LaunchError.message : LaunchError → String
  | notConfigured id => "node '" ++ id ++ "' is not configured"
  | cannotBind endpoint => "failed to bind " ++ endpoint.text

namespace Launch

/-- The indices of the replicas to be started. -/
def selected (c : Config) : Option String → Except LaunchError (List Nat)
  | none => .ok (List.range c.nodes.length)
  | some id =>
    match c.node? id with
    | none => .error (.notConfigured id)
    | some (index, _) => .ok [index]

/-- The configured replica at an index. -/
def replica (c : Config) (index : Nat) (n : NodeConfig) : Replica :=
  (Replica.new n.endpoint n.id ⟨c.writeQuorum, c.readQuorum⟩ c.timeout).assignList (c.list index)

/-- Starts the replicas of a configuration, or only one.  The first that cannot
listen at its endpoint ends the start. -/
def launch (canBind : Endpoint → Bool) (c : Config) (only : Option String) :
    Except LaunchError Cluster := do
  let indices ← selected c only
  let replicas ← (indices.filterMap fun i => c.nodes[i]?.map (replica c i)).mapM fun r =>
    if canBind r.endpoint then .ok r else .error (.cannotBind r.endpoint)
  .ok (Cluster.ofReplicas replicas)

/-- The first started replica with a name. -/
def node? (c : Cluster) (id : String) : Option Replica :=
  c.replicas.find? fun r => r.id = id

/-- Whether the cluster comes to an end by itself, which it does only if there is
nothing to serve. -/
def endsByItself (c : Cluster) : Bool :=
  c.replicas.isEmpty

end Launch

end QuorumStore
