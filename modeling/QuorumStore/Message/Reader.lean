/-
Messages read from JSON.

* a record is an object, whose other members are ignored, or an array of all its
  fields in order;
* in an object every field occurs once, and all names are texts;
* a map takes the last of several members with one name;
* a tagged value is an object with the tag and the content in either order, or
  an array of both.  Content that comes before its tag is set aside until the
  tag is known, so it must be holdable.
-/
import QuorumStore.Json.Reader
import QuorumStore.Message.Basic
import QuorumStore.Text.Base64

namespace QuorumStore

namespace Json

/-! ### Plain values -/

/-- The text of a value that is one. -/
def text? : Json → Option String
  | string s => s
  | _ => none

/-- The truth value of a value that is one. -/
def bool? : Json → Option Bool
  | bool b => some b
  | _ => none

/-- The number of a value that is a natural number up to a limit. -/
def natUpTo? (limit : Nat) : Json → Option Nat
  | number n => n.natural?.filter (· ≤ limit)
  | _ => none

/-- The items of a value that is an array. -/
def items? : Json → Option (List Json)
  | array items => some items
  | _ => none

/-- The members of a value that is an object with readable names. -/
def members? : Json → Option (List (String × Json))
  | object members => members.mapM fun p => p.1.map fun k => (k, p.2)
  | _ => none

/-! ### Records -/

/-- The value of the one member that has a name. -/
def theMember? (members : List (String × Json)) (name : String) : Option Json :=
  match members.filter fun p => p.1 = name with
  | [p] => some p.2
  | _ => none

/-- The fields of an object, in the order of the names. -/
def fields? (names : List String) (v : Json) : Option (List Json) := do
  let members ← v.members?
  names.mapM (theMember? members)

/-- The fields of a record, in the order of the names. -/
def record? (names : List String) (v : Json) : Option (List Json) :=
  match v with
  | array items => if items.length = names.length then some items else none
  | _ => v.fields? names

/-! ### Tagged values -/

/-- The name of a variant without content: alone, or with the value null. -/
def variant? : Json → Option String
  | string s => s
  | object [(some name, null)] => some name
  | _ => none

/-- The tag and the content of a tagged value.  `depth` bounds the nesting of
content that is set aside. -/
def tagged? (name : String) (depth : Nat) (v : Json) : Option (Method × Option Json) :=
  match v with
  | array [tag, content] => do
    let method ← Method.ofTag? (← tag.variant?)
    some (method, some content)
  | array _ => none
  | _ => do
    let members ← v.members?
    let method ← Method.ofTag? (← (← theMember? members "method").variant?)
    match members.filter fun p => p.1 = name with
    | [] => some (method, none)
    | [(_, content)] =>
      let early := (members.takeWhile fun p => p.1 ≠ "method").any fun p => p.1 = name
      if early && !content.holdable depth then none else some (method, some content)
    | _ => none

/-- Whether the content of a tagged value says nothing. -/
def isUnit : Option Json → Bool
  | none => true
  | some null => true
  | some _ => false

end Json

/-! ### The domain -/

/-- Keeps the counters that are not zero. -/
def Clock.ofCounters (m : KeyMap UInt64) : Clock where
  counters :=
    ⟨m.entries.filter fun p => p.2 ≠ 0, m.ascending.sublist (List.filter_sublist.map Prod.fst)⟩
  nonzero p hp := by simpa using (List.mem_filter.1 hp).2

/-- A clock from an object of counters. -/
def Clock.ofJson? (v : Json) : Option Clock := do
  let members ← v.members?
  let pairs ← members.mapM fun p =>
    (p.2.natUpTo? counterLimit.toNat).map fun n => (p.1, UInt64.ofNat n)
  some (Clock.ofCounters (KeyMap.ofList pairs))

/-- The clock of a context. -/
def Clock.ofContextJson? (v : Json) : Option Clock :=
  match v.record? ["clock"] with
  | some [clock] => Clock.ofJson? clock
  | _ => none

/-- The bytes of a value in base64. -/
def bytesOfJson? (v : Json) : Option Bytes := do
  Base64.decode? (← v.text?)

/-- A version from its context and value. -/
def Version.ofJson? (v : Json) : Option Version :=
  match v.record? ["context", "value"] with
  | some [context, value] => do
    some ⟨← Clock.ofContextJson? context, ← bytesOfJson? value⟩
  | _ => none

/-- Versions from an array. -/
def Siblings.ofJson? (v : Json) : Option Siblings := do
  (← v.items?).mapM Version.ofJson?

/-- A store from an object. -/
def Store.ofJson? (v : Json) : Option Store := do
  let members ← v.members?
  let pairs ← members.mapM fun p => (Siblings.ofJson? p.2).map fun s => (p.1, s)
  some (KeyMap.ofList pairs)

/-- An endpoint from its address and port. -/
def Endpoint.ofJson? (v : Json) : Option Endpoint :=
  match v.record? ["address", "port"] with
  | some [address, port] => do
    some ⟨← address.text?, UInt16.ofNat (← port.natUpTo? 65535)⟩
  | _ => none

/-- What a request of a kind is about. -/
def Request.ofParams? (method : Method) (params : Option Json) : Option Request :=
  let fields (names : List String) : Option (List Json) := do (← params).fields? names
  match method with
  | .put =>
    match fields ["key", "context", "value"] with
    | some [key, context, value] => do
      some (.put (← key.text?) (← Clock.ofContextJson? context) (← bytesOfJson? value))
    | _ => none
  | .get =>
    match fields ["key"] with
    | some [key] => key.text?.map .get
    | _ => none
  | .replicate =>
    match fields ["key", "entries"] with
    | some [key, versions] => do
      some (.replicate (← key.text?) (← Siblings.ofJson? versions))
    | _ => none
  | .fetch =>
    match fields ["key"] with
    | some [key] => key.text?.map .fetch
    | _ => none
  | .absorb =>
    match fields ["store"] with
    | some [pushed] => (Store.ofJson? pushed).map .absorb
    | _ => none
  | .gossip => if Json.isUnit params then some .gossip else none
  | .crash =>
    match fields ["seconds"] with
    | some [seconds] =>
      (seconds.natUpTo? counterLimit.toNat).map fun n => .crash (UInt64.ofNat n)
    | _ => none
  | .assignList =>
    match fields ["nodes"] with
    | some [list] => do
      some (.assignList (← (← list.items?).mapM Endpoint.ofJson?))
    | _ => none

/-- The response of a kind with its content. -/
def Response.ofResult? (method : Method) (result : Option Json) : Option Response :=
  match method with
  | .put => (result.bind Json.bool?).map .put
  | .get => (result.bind Siblings.ofJson?).map .get
  | .replicate => (result.bind Json.bool?).map .replicate
  | .fetch => (result.bind Siblings.ofJson?).map .fetch
  | .absorb => if Json.isUnit result then some .absorb else none
  | .gossip => if Json.isUnit result then some .gossip else none
  | .crash => (result.bind Json.bool?).map .crash
  | .assignList => if Json.isUnit result then some .assignList else none

/-- How deep the content of a tagged value at the top may be nested. -/
def contentDepth : Nat := 126

/-- A request from JSON. -/
def Request.ofJson? (v : Json) : Option Request := do
  let (method, params) ← v.tagged? "params" contentDepth
  Request.ofParams? method params

/-- A response from JSON, with a bound on the nesting of its content. -/
def Response.ofJsonWithin? (depth : Nat) (v : Json) : Option Response := do
  let (method, result) ← v.tagged? "result" depth
  Response.ofResult? method result

/-- A response from JSON. -/
def Response.ofJson? (v : Json) : Option Response :=
  Response.ofJsonWithin? contentDepth v

/-- A fault from its name, or from its name and reason. -/
def Fault.ofJson? : Json → Option Fault
  | .object [(some "BadRequest", reason)] => reason.text?.map .badRequest
  | v =>
    match v.variant? with
    | some "ServerCrash" => some .crashed
    | some "StaleVersion" => some .stale
    | some "NotFound" => some .notFound
    | _ => none

/-- A reply from JSON. -/
def Reply.ofJson? : Json → Option Reply
  | .object [(some "Ok", response)] =>
    (Response.ofJsonWithin? (contentDepth - 1) response).map .ok
  | .object [(some "Err", fault)] => (Fault.ofJson? fault).map .error
  | _ => none

/-! ### From text -/

/-- Reads a request. -/
def Request.parse? (s : String) : Option Request :=
  (Json.parse? s).bind Request.ofJson?

/-- Reads a reply. -/
def Reply.parse? (s : String) : Option Reply :=
  (Json.parse? s).bind Reply.ofJson?

end QuorumStore
