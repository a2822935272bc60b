/-
The configuration of a cluster.

* `Config.ofFile`: reads a configuration file;
* `Config.list`: the preference list of the replica at an index;
* `Config.node?`: looks a replica up by its name.
-/
import QuorumStore.Ring
import QuorumStore.Text.Utf8
import QuorumStore.Toml.Reader

namespace QuorumStore

/-- One replica of a configuration. -/
structure NodeConfig where
  /-- The name that it signs writes with. -/
  id : String
  /-- The host that it listens on. -/
  address : String
  /-- The port that it listens on. -/
  port : UInt16
  deriving DecidableEq, Inhabited

/-- Where a configured replica listens. -/
def NodeConfig.endpoint (n : NodeConfig) : Endpoint :=
  ⟨n.address, n.port⟩

/-- The configuration of a cluster. -/
structure Config where
  /-- How many replicas a write is to reach. -/
  writeQuorum : Nat
  /-- How many replicas a read is to reach. -/
  readQuorum : Nat
  /-- How long to wait for a peer, in milliseconds. -/
  timeout : Nat
  /-- The seconds between periodic pushes, as they are written. -/
  pushSeconds : Option Nat
  /-- The port for operators, if there is one. -/
  metricsPort : Option UInt16
  /-- The replicas, in the order of the ring. -/
  nodes : List NodeConfig
  deriving DecidableEq, Inhabited

namespace Config

/-- The time to wait for a peer where none is given. -/
def defaultTimeout : Nat := 500

/-- The seconds between periodic pushes; zero means that there are none. -/
def pushInterval (c : Config) : Option Nat :=
  c.pushSeconds.filter (0 < ·)

/-- The endpoints in the order of the ring. -/
def ring (c : Config) : List Endpoint :=
  c.nodes.map NodeConfig.endpoint

/-- The preference list of the replica at an index. -/
def list (c : Config) (index : Nat) : List Endpoint :=
  Ring.startingAt c.ring index

/-- The first replica with a name, and its index. -/
def node? (c : Config) (id : String) : Option (Nat × NodeConfig) :=
  (c.nodes.zipIdx.find? fun p => p.1.id = id).map fun p => (p.2, p.1)

end Config

/-! ### Reading -/

namespace Toml

/-- The fields of a record, each of which may be missing: the values of a table
by name, or the items of an array in order. -/
def fields? (names : List String) : Toml → Option (List (Option Toml))
  | table entries => some (names.map (lookup? entries))
  | array items => some (names.zipIdx.map fun p => items[p.2]?)
  | _ => none

/-- The text of a value that is one. -/
def text? : Toml → Option String
  | string s => some s
  | _ => none

/-- The number of a value that is a natural number up to a limit. -/
def natUpTo? (limit : Nat) : Toml → Option Nat
  | integer n => if 0 ≤ n ∧ n ≤ limit then some n.toNat else none
  | _ => none

/-- Reads a field that may be missing; a field that is there must be readable. -/
def optional? {α : Type} (read : Toml → Option α) : Option Toml → Option (Option α)
  | none => some none
  | some v => (read v).map some

end Toml

/-- Why there is no configuration. -/
inductive ConfigError where
  /-- There is no such file. -/
  | missing
  /-- The file is not UTF-8. -/
  | notText
  /-- The file does not spell a configuration. -/
  | malformed
  deriving DecidableEq

/-- The wording of a configuration error. -/
def ConfigError.message : ConfigError → String
  | missing => "failed to read config file: No such file or directory (os error 2)"
  | notText => "failed to read config file: stream did not contain valid UTF-8"
  | malformed => "failed to parse config"

namespace NodeConfig

/-- A replica from its fields. -/
def ofToml? (v : Toml) : Option NodeConfig :=
  match v.fields? ["id", "address", "port"] with
  | some [some id, some address, some port] => do
    some ⟨← id.text?, ← address.text?, UInt16.ofNat (← port.natUpTo? 65535)⟩
  | _ => none

end NodeConfig

namespace Config

/-- The port for operators from its section. -/
def metricsPortOfToml? (v : Toml) : Option UInt16 :=
  match v.fields? ["port"] with
  | some [some port] => (port.natUpTo? 65535).map UInt16.ofNat
  | _ => none

/-- The replicas from their sections. -/
def nodesOfToml? : Toml → Option (List NodeConfig)
  | .array items => items.mapM NodeConfig.ofToml?
  | _ => none

/-- A configuration from its sections. -/
def ofSections? (sections : List (String × Toml)) : Option Config := do
  let cluster ← Toml.lookup? sections "cluster"
  match cluster.fields?
      ["write_quorum", "read_quorum", "rpc_timeout_ms", "gossip_interval_secs"] with
  | some [some write, some read, timeout, push] => do
    let count := Toml.natUpTo? Toml.integerLimit
    some
      { writeQuorum := ← count write
        readQuorum := ← count read
        timeout := (← Toml.optional? count timeout).getD defaultTimeout
        pushSeconds := ← Toml.optional? count push
        metricsPort := ← Toml.optional? metricsPortOfToml? (Toml.lookup? sections "metrics")
        nodes := (← Toml.optional? nodesOfToml? (Toml.lookup? sections "node")).getD [] }
  | _ => none

/-- Reads a configuration. -/
def parse? (s : String) : Option Config := do
  ofSections? (← Toml.parse? s)

/-- Reads a configuration file; there may be none. -/
def ofFile : Option Bytes → Except ConfigError Config
  | none => .error .missing
  | some bs =>
    match Utf8.text? bs with
    | none => .error .notText
    | some s =>
      match parse? s with
      | none => .error .malformed
      | some c => .ok c

end Config

end QuorumStore
