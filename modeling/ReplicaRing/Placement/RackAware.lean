import ReplicaRing.Cluster.Snapshot
import ReplicaRing.ReplicaSet
import ReplicaRing.ReplicationFactor

/-!
# Placement spread over racks

Every configured datacenter has a quota of replicas, which is met from its own nodes along one
walk of the ring. In each datacenter a node is placed at once if its rack holds no replica yet;
a node on a rack that does is put aside until every rack of the datacenter has been seen. Then
the nodes put aside are placed in the order of the walk, and later nodes whatever their rack.
The walk stops as soon as every quota is met.

* `DatacenterProgress.offer` decides about one node of a datacenter.
* `rackAware` runs the walk.
-/

namespace ReplicaRing.Placement

/-- How far the placement in one datacenter has come. -/
structure DatacenterProgress where
  factor : ReplicationFactor
  /-- The number of replicas to place. -/
  need : Nat
  /-- The number of replicas placed. -/
  placed : Nat
  /-- The number of racks in the datacenter. -/
  rackCount : Nat
  /-- The racks of the nodes offered so far. -/
  seenRacks : List String
  /-- The nodes put aside, in the order of the walk. -/
  setAside : List Endpoint
  deriving DecidableEq

namespace DatacenterProgress

/-- The start in a datacenter with so many endpoints and racks. -/
def start (factor : ReplicationFactor) (endpoints rackCount : Nat) : DatacenterProgress where
  factor := factor
  need := min factor.all endpoints
  placed := 0
  rackCount := rackCount
  seenRacks := []
  setAside := []

/-- Whether the quota is met. -/
def isDone (p : DatacenterProgress) : Bool := decide (p.need ≤ p.placed)

/-- Whether every rack has been seen. -/
def racksExhausted (p : DatacenterProgress) : Bool := decide (p.rackCount ≤ p.seenRacks.length)

variable {T : Type}

/-- Places a node: transient once the full replicas are placed. -/
def place (arc : Arc T) (e : Endpoint) (p : DatacenterProgress) (replicas : ReplicaSet T) :
    DatacenterProgress × ReplicaSet T :=
  match replicas.push ⟨e, arc, decide (p.factor.full ≤ p.placed)⟩ with
  | (true, replicas) => ({ p with placed := p.placed + 1 }, replicas)
  | (false, replicas) => (p, replicas)

/-- Places nodes in turn until the quota is met. -/
def placeAll (arc : Arc T) : List Endpoint → DatacenterProgress → ReplicaSet T →
    DatacenterProgress × ReplicaSet T
  | [], p, replicas => (p, replicas)
  | e :: rest, p, replicas =>
    if p.isDone then (p, replicas)
    else
      let (p, replicas) := place arc e p replicas
      placeAll arc rest p replicas

/-- Offers a node on the given rack. -/
def offer (arc : Arc T) (e : Endpoint) (rack : String) (p : DatacenterProgress)
    (replicas : ReplicaSet T) : DatacenterProgress × ReplicaSet T :=
  if p.racksExhausted then place arc e p replicas
  else if rack ∈ p.seenRacks then ({ p with setAside := p.setAside ++ [e] }, replicas)
  else
    let (p, replicas) := place arc e { p with seenRacks := rack :: p.seenRacks } replicas
    if p.racksExhausted then placeAll arc p.setAside { p with setAside := [] } replicas
    else (p, replicas)

end DatacenterProgress

/-- The replica quota of each configured datacenter. -/
abbrev Quotas := OrderedMap String ReplicationFactor

/-- The quota of a datacenter; a datacenter that is not configured gets nothing. -/
def Quotas.factorFor (q : Quotas) (dc : String) : ReplicationFactor := (q.get? dc).getD .zero

/-- The quotas of all datacenters together. -/
def Quotas.total (q : Quotas) : ReplicationFactor := .sum q.values

/-- How far a placement over all datacenters has come. -/
structure Progress (T : Type) where
  datacenters : OrderedMap String DatacenterProgress
  /-- The number of datacenters whose quota is not met. -/
  pending : Nat
  replicas : ReplicaSet T

namespace Progress

variable {T : Type}

/-- The start with the endpoints and racks of a directory. -/
def start (q : Quotas) (d : Directory) : Progress T :=
  let datacenters := q.mapValues fun dc factor =>
    DatacenterProgress.start factor (d.endpointsIn dc).length (d.rackCount dc)
  { datacenters
    pending := (datacenters.values.filter fun p => !p.isDone).length
    replicas := ∅ }

/-- Offers a node to its datacenter, if that is configured and its quota is not met. -/
def visit (arc : Arc T) (s : Progress T) (n : Node) : Progress T :=
  match s.datacenters.get? n.datacenter with
  | none => s
  | some p =>
    if p.isDone then s
    else
      let (p, replicas) := p.offer arc n.endpoint n.rack s.replicas
      { datacenters := s.datacenters.insert n.datacenter p
        pending := if p.isDone then s.pending - 1 else s.pending
        replicas }

/-- Visits nodes in turn until every quota is met. -/
def visitAll (arc : Arc T) (s : Progress T) : List Node → Progress T
  | [] => s
  | n :: rest => if s.pending = 0 then s else visitAll arc (s.visit arc n) rest

end Progress

variable {T : Type} [Token T]

/-- The replicas of the arc that `t` lies on, placed along the walk from `t`. -/
def rackAware (q : Quotas) (s : Snapshot T) (t : T) : ReplicaSet T :=
  match s.ring.arcFor? t with
  | none => ∅
  | some arc => ((Progress.start q s.directory).visitAll arc (s.nodesFrom t)).replicas

end ReplicaRing.Placement
