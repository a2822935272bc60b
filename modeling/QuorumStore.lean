import QuorumStore.Agenda
import QuorumStore.Batch
import QuorumStore.Clock
import QuorumStore.Cluster.Basic
import QuorumStore.Cluster.Busy
import QuorumStore.Cluster.Chronology
import QuorumStore.Cluster.History
import QuorumStore.Cluster.Patience
import QuorumStore.Cluster.Timeline
import QuorumStore.Cluster.Traffic
import QuorumStore.Config.Basic
import QuorumStore.Config.Problem
import QuorumStore.Failure
import QuorumStore.Frame
import QuorumStore.Json.Basic
import QuorumStore.Json.Reader
import QuorumStore.Json.Writer
import QuorumStore.KeyMap
import QuorumStore.Launch
import QuorumStore.Main
import QuorumStore.Message.Basic
import QuorumStore.Message.Reader
import QuorumStore.Message.Writer
import QuorumStore.Outage
import QuorumStore.Proofs.Admission
import QuorumStore.Proofs.Base64
import QuorumStore.Proofs.Batches
import QuorumStore.Proofs.Causality
import QuorumStore.Proofs.Comparison
import QuorumStore.Proofs.Convergence
import QuorumStore.Proofs.Conversations
import QuorumStore.Proofs.Delays
import QuorumStore.Proofs.Deliveries
import QuorumStore.Proofs.Durability
import QuorumStore.Proofs.EndOfStream
import QuorumStore.Proofs.Evolution
import QuorumStore.Proofs.Framing
import QuorumStore.Proofs.Joins
import QuorumStore.Proofs.JsonText
import QuorumStore.Proofs.KeyIndependence
import QuorumStore.Proofs.Knowledge
import QuorumStore.Proofs.LostWrites
import QuorumStore.Proofs.MaximalClocks
import QuorumStore.Proofs.Merging
import QuorumStore.Proofs.MessageSizes
import QuorumStore.Proofs.Messages
import QuorumStore.Proofs.Operations
import QuorumStore.Proofs.Outages
import QuorumStore.Proofs.Patience
import QuorumStore.Proofs.Provenance
import QuorumStore.Proofs.QuorumIntersection
import QuorumStore.Proofs.ReadWalks
import QuorumStore.Proofs.Refusals
import QuorumStore.Proofs.Repetition
import QuorumStore.Proofs.Requests
import QuorumStore.Proofs.Resumption
import QuorumStore.Proofs.Retention
import QuorumStore.Proofs.Rotations
import QuorumStore.Proofs.Spreading
import QuorumStore.Proofs.Superseding
import QuorumStore.Proofs.Timekeeping
import QuorumStore.Proofs.Topology
import QuorumStore.Proofs.Transport
import QuorumStore.Proofs.Validation
import QuorumStore.Proofs.VersionSets
import QuorumStore.Proofs.WriteWalks
import QuorumStore.Replica.Basic
import QuorumStore.Replica.Coordination
import QuorumStore.Replica.Description
import QuorumStore.Replica.History
import QuorumStore.Replica.Timed
import QuorumStore.Ring
import QuorumStore.Service.Caller
import QuorumStore.Service.Host
import QuorumStore.Service.Network
import QuorumStore.Service.Session
import QuorumStore.StatusPage
import QuorumStore.Store
import QuorumStore.Text.Base64
import QuorumStore.Text.Blank
import QuorumStore.Text.Quoted
import QuorumStore.Text.Utf8
import QuorumStore.Text.Visible
import QuorumStore.Toml.Basic
import QuorumStore.Toml.Reader
import QuorumStore.Toml.Scalar
import QuorumStore.Version
