import ReplicaRing.Arc
import ReplicaRing.Ascending
import ReplicaRing.Cluster.Draft
import ReplicaRing.Cluster.Snapshot
import ReplicaRing.Cluster.Topology
import ReplicaRing.Directory
import ReplicaRing.Directory.Registry
import ReplicaRing.Endpoint
import ReplicaRing.Endpoint.Parser
import ReplicaRing.Endpoint.Printer
import ReplicaRing.Hash.Xxh3
import ReplicaRing.Json
import ReplicaRing.Json.Form
import ReplicaRing.Json.Parser
import ReplicaRing.Node
import ReplicaRing.Order
import ReplicaRing.OrderedMap
import ReplicaRing.Partitioner
import ReplicaRing.Placement.InOrder
import ReplicaRing.Placement.RackAware
import ReplicaRing.ReplicaMap
import ReplicaRing.ReplicaSet
import ReplicaRing.ReplicationFactor
import ReplicaRing.Strategy
import ReplicaRing.Strategy.Json
import ReplicaRing.Strategy.Options
import ReplicaRing.Text.Blank
import ReplicaRing.Text.Hex
import ReplicaRing.Text.Numeral
import ReplicaRing.Text.Quoted
import ReplicaRing.Text.Unprintable
import ReplicaRing.Token
import ReplicaRing.Token.Bytes
import ReplicaRing.Token.Long
import ReplicaRing.TokenRing
import ReplicaRing.TokenRing.Walk
import ReplicaRing.VirtualNode
import ReplicaRing.Proofs.Members
import ReplicaRing.Proofs.Preference
import ReplicaRing.Proofs.Procedure
import ReplicaRing.Proofs.Refinement
import ReplicaRing.Proofs.Shares
import ReplicaRing.Proofs.Quota
import ReplicaRing.Proofs.Departure
import ReplicaRing.Proofs.Freezing
import ReplicaRing.Proofs.Removal
import ReplicaRing.Proofs.Disruption
import ReplicaRing.Proofs.Arcs
import ReplicaRing.Proofs.Partition
import ReplicaRing.Proofs.ReplicaMap
import ReplicaRing.Proofs.Isolation
import ReplicaRing.Proofs.Monotone
import ReplicaRing.Proofs.Reordering
import ReplicaRing.Proofs.Acceptance
import ReplicaRing.Proofs.Refusal
import ReplicaRing.Proofs.Commuting
import ReplicaRing.Proofs.Resuming
import ReplicaRing.Proofs.Roster
import ReplicaRing.Proofs.SingleEdit
import ReplicaRing.Proofs.Publishing
import ReplicaRing.Proofs.Primary
import ReplicaRing.Proofs.RepeatBudget
import ReplicaRing.Proofs.Warnings
import ReplicaRing.Proofs.TokenOwners
import ReplicaRing.Proofs.Walks
import ReplicaRing.Proofs.FlatTopology
import ReplicaRing.Proofs.Numerals
import ReplicaRing.Proofs.DerivedTokens
import ReplicaRing.Proofs.Indexes
import ReplicaRing.Proofs.Bindings
import ReplicaRing.Proofs.Spelling
import ReplicaRing.Proofs.Configuration
import ReplicaRing.Proofs.Offers
import ReplicaRing.Proofs.NumeralGrammar
import ReplicaRing.Proofs.FactorGrammar
import ReplicaRing.Proofs.FactorText
import ReplicaRing.Proofs.QuotaOptions
import ReplicaRing.Proofs.OriginCut
import ReplicaRing.Proofs.Successors
import ReplicaRing.Proofs.LongTokenGrammar
import ReplicaRing.Proofs.Grouping
