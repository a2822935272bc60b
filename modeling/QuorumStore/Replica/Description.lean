/-
A replica described for operators: its identity, its quorums and whether it is
out of service.
-/
import QuorumStore.Replica.Basic
import QuorumStore.Text.Quoted

namespace QuorumStore

/-- The fields of a record between braces, under its name. -/
def recordText (name : String) (fields : List (String × String)) : String :=
  name ++ " \x7b " ++ ", ".intercalate (fields.map fun f => f.1 ++ ": " ++ f.2) ++ " \x7d"

/-- An endpoint as a record. -/
def Endpoint.description (e : Endpoint) : String :=
  recordText "ReplicaIdentity"
    [("address", Quoted.encode e.address), ("port", toString e.port.toNat)]

/-- Quorums as a record. -/
def Quorum.description (q : Quorum) : String :=
  recordText "Quorum" [("write", toString q.write), ("read", toString q.read)]

/-- A replica as a record. -/
def Replica.description (r : Replica) : String :=
  recordText "ReplicaNode"
    [("identity", r.endpoint.description), ("node_id", Quoted.encode r.id),
      ("quorum", r.quorum.description), ("crashed", if r.outage.down then "true" else "false")]

end QuorumStore
