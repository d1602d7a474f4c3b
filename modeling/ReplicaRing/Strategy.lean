import ReplicaRing.Partitioner
import ReplicaRing.Placement.InOrder
import ReplicaRing.Placement.RackAware

/-!
# Replication strategies

A strategy is a configured rule that places the replicas of every token of a snapshot: either in
ring order under one replication factor, or by quotas for each datacenter, spread over racks.

* `Strategy.place` gives the replicas of a token, and `Strategy.placeKey` those of a key.
* `Strategy.unmetQuotas` finds the quotas that a snapshot cannot meet, and `Strategy.warnings`
  tells operators of them.
-/

namespace ReplicaRing

/-- A configured way of placing replicas. -/
inductive Strategy
  | simple (factor : ReplicationFactor)
  | networkTopology (quotas : Placement.Quotas)
  deriving DecidableEq

/-- Why the quota of a datacenter is not met. -/
inductive QuotaWarning
  /-- Replicas are asked for, and no node is there. -/
  | unknownDatacenter (dc : String)
  /-- More replicas are asked for than there are nodes. -/
  | tooFewNodes (dc : String) (asked nodes : Nat)
  deriving DecidableEq

def QuotaWarning.message : QuotaWarning → String
  | .unknownDatacenter dc =>
    "Datacenter " ++ dc ++ " is not known to the cluster and will receive no replicas"
  | .tooFewNodes dc asked nodes =>
    "Your replication factor " ++ Text.decimal asked ++ " for datacenter " ++ dc ++
      " is higher than the number of nodes " ++ Text.decimal nodes

namespace Strategy

/-- The name that configurations use. -/
def name : Strategy → String
  | simple _ => "SimpleStrategy"
  | networkTopology _ => "NetworkTopologyStrategy"

/-- The number of replicas that the strategy asks for in the whole cluster. -/
def factor : Strategy → ReplicationFactor
  | simple factor => factor
  | networkTopology quotas => quotas.total

variable {T : Type} [Token T]

/-- The replicas of the arc that `t` lies on. A ring without tokens has none. -/
def place : Strategy → Snapshot T → T → ReplicaSet T
  | simple factor, s, t => Placement.inOrder factor s t
  | networkTopology quotas, s, t => Placement.rackAware quotas s t

/-- The replicas of a key. -/
def placeKey (strategy : Strategy) (p : Partitioner T) (s : Snapshot T) (key : List UInt8) :
    ReplicaSet T :=
  strategy.place s (p.partition key)

/-- What an operator should know about a datacenter with this quota and so many nodes. -/
def quotaWarnings (dc : String) (factor : ReplicationFactor) (nodes : Nat) : List QuotaWarning :=
  (if nodes = 0 ∧ 0 < factor.all then [.unknownDatacenter dc] else []) ++
    if nodes < factor.all then [.tooFewNodes dc factor.all nodes] else []

/-- The quotas that the snapshot cannot meet, by datacenter. -/
def unmetQuotas : Strategy → Snapshot T → List QuotaWarning
  | simple _, _ => []
  | networkTopology quotas, s =>
    quotas.toList.flatMap fun (dc, factor) =>
      quotaWarnings dc factor (s.directory.endpointsIn dc).length

/-- The messages about quotas that the snapshot cannot meet. -/
def warnings (strategy : Strategy) (s : Snapshot T) : List String :=
  (strategy.unmetQuotas s).map QuotaWarning.message

end Strategy

end ReplicaRing
