/-
What an operator sees over HTTP: the counters at `/metrics` and the state of the
replicas at `/status`.

* `StatusPage.respond`: the answer to a request;
* `StatusPage.counters`: the counters by the names under which they are shown.
-/
import QuorumStore.Json.Basic
import QuorumStore.Replica.Basic

namespace QuorumStore

namespace StatusPage

/-- What a page holds. -/
inductive Body where
  /-- Nothing. -/
  | empty
  /-- The counters as text. -/
  | counters
  /-- The state of the replicas. -/
  | replicas (v : Json)

/-- An answer to a request. -/
structure Answer where
  /-- The status code. -/
  status : Nat
  /-- The content type, if there is content. -/
  contentType : Option String
  /-- The content. -/
  body : Body

/-- The state of a replica.  `showEnd` writes the end of an outage. -/
def replicaJson (showEnd : Nat → String) (r : Replica) : Json :=
  .obj [("id", .text r.id), ("endpoint", .text r.endpoint.text), ("crashed", .bool r.outage.down),
    ("crashed_until", (r.outage.ends.map fun ms => .text (showEnd ms)).getD .null),
    ("keys", .nat r.store.size),
    ("preference_list", .array (r.list.map fun e => .text e.text))]

/-- The path of a request target, without its query. -/
def pathOf (target : String) : String :=
  String.ofList (target.toList.takeWhile fun c => c ≠ '?' ∧ c ≠ '#')

/-- Answers a request.  A page is got with its content or, by HEAD, without it;
no other method is allowed on a page, and there are two pages. -/
def respond (showEnd : Nat → String) (method target : String) (replicas : List Replica) : Answer :=
  let answer (contentType : String) (body : Body) : Answer :=
    if method = "GET" then ⟨200, some contentType, body⟩
    else if method = "HEAD" then ⟨200, some contentType, .empty⟩
    else ⟨405, none, .empty⟩
  match pathOf target with
  | "/metrics" => answer "text/plain; charset=utf-8" .counters
  | "/status" =>
    answer "application/json" (.replicas (.array (replicas.map (replicaJson showEnd))))
  | _ => ⟨404, none, .empty⟩

/-! ### Counters -/

/-- A counter's name with its labels. -/
def sampleName (name : String) (labels : List (String × String)) : String :=
  let shown := labels.map fun p => p.1 ++ "=\"" ++ p.2 ++ "\""
  name ++ "\x7b" ++ ",".intercalate shown ++ "\x7d"

/-- Adds to one of several counters, which begins at zero. -/
def bump (name : String) (n : Nat) (counts : KeyMap Nat) : KeyMap Nat :=
  counts.insert name ((counts.get? name).getD 0 + n)

/-- Adds what a replica has counted. -/
def addTally (counts : KeyMap Nat) (t : Tally) : KeyMap Nat :=
  let counts := t.served.foldl (fun counts p =>
    bump (sampleName "dynamo_requests_total" [("method", p.1.label), ("outcome", p.2)]) 1
      (bump (sampleName "dynamo_request_duration_seconds_count" [("method", p.1.label)]) 1
        counts)) counts
  let counts := t.failed.foldl (fun counts p =>
    bump (sampleName "dynamo_peer_failures_total" [("error", p.2), ("method", p.1.label)]) 1
      counts) counts
  if t.accepted = 0 then counts
  else bump "dynamo_gossip_versions_accepted_total" t.accepted counts

/-- The counters of some replicas together, as far as they are not zero. -/
def counters (replicas : List Replica) : KeyMap Nat :=
  replicas.foldl (fun counts r => addTally counts r.tally) KeyMap.empty

end StatusPage

end QuorumStore
