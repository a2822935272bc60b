/-
Messages written as JSON.  The members of every object come in a fixed order,
and clocks and stores list their keys in ascending order.
-/
import QuorumStore.Json.Writer
import QuorumStore.Message.Basic
import QuorumStore.Text.Base64

namespace QuorumStore

/-- A clock as an object of counters. -/
def Clock.toJson (c : Clock) : Json :=
  .obj (c.entries.map fun p => (p.1, .nat p.2.toNat))

/-- The context of a write, which holds its clock. -/
def Clock.toContextJson (c : Clock) : Json :=
  .obj [("clock", c.toJson)]

/-- A version with its context and its value in base64. -/
def Version.toJson (v : Version) : Json :=
  .obj [("context", v.clock.toContextJson), ("value", .text (Base64.encode v.value))]

/-- Versions as an array, in order. -/
def Siblings.toJson (s : Siblings) : Json :=
  .array (s.map Version.toJson)

/-- A store as an object from keys to versions. -/
def Store.toJson (s : Store) : Json :=
  .obj (s.entries.map fun p => (p.1, Siblings.toJson p.2))

/-- An endpoint as an object. -/
def Endpoint.toJson (e : Endpoint) : Json :=
  .obj [("address", .text e.address), ("port", .nat e.port.toNat)]

/-- What a request is about; nothing for a request without parameters. -/
def Request.params? : Request → Option Json
  | .put key context value =>
    some (.obj [("key", .text key), ("context", context.toContextJson),
      ("value", .text (Base64.encode value))])
  | .get key => some (.obj [("key", .text key)])
  | .replicate key versions =>
    some (.obj [("key", .text key), ("entries", versions.toJson)])
  | .fetch key => some (.obj [("key", .text key)])
  | .absorb pushed => some (.obj [("store", pushed.toJson)])
  | .gossip => none
  | .crash seconds => some (.obj [("seconds", .nat seconds.toNat)])
  | .assignList list => some (.obj [("nodes", .array (list.map Endpoint.toJson))])

/-- The content of a response; nothing for a bare confirmation. -/
def Response.result? : Response → Option Json
  | .put ok => some (.bool ok)
  | .get versions => some versions.toJson
  | .replicate stored => some (.bool stored)
  | .fetch versions => some versions.toJson
  | .absorb => none
  | .gossip => none
  | .crash ok => some (.bool ok)
  | .assignList => none

/-- A kind of call with its content, under the given name. -/
def taggedJson (method : Method) (name : String) : Option Json → Json
  | none => .obj [("method", .text method.tag)]
  | some content => .obj [("method", .text method.tag), (name, content)]

/-- A request as JSON. -/
def Request.toJson (r : Request) : Json :=
  taggedJson r.method "params" r.params?

/-- A response as JSON. -/
def Response.toJson (r : Response) : Json :=
  taggedJson r.method "result" r.result?

/-- A fault as JSON: its name alone, or with its reason. -/
def Fault.toJson : Fault → Json
  | .crashed => .text "ServerCrash"
  | .stale => .text "StaleVersion"
  | .notFound => .text "NotFound"
  | .badRequest reason => .obj [("BadRequest", .text reason)]

/-- A reply as JSON. -/
def Reply.toJson : Reply → Json
  | .ok response => .obj [("Ok", response.toJson)]
  | .error fault => .obj [("Err", fault.toJson)]

end QuorumStore
