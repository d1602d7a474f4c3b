import ReplicaRing.Cluster.Snapshot
import ReplicaRing.ReplicaSet
import ReplicaRing.ReplicationFactor

/-!
# Placement in ring order

The replicas of a token are the first nodes that the walk from the token yields, as many as the
replication factor asks for and the ring has. Those past the full replicas are transient.
-/

namespace ReplicaRing.Placement

variable {T : Type} [Token T]

/-- The replicas of the arc that `t` lies on, placed along the walk from `t`. -/
def inOrder (factor : ReplicationFactor) (s : Snapshot T) (t : T) : ReplicaSet T :=
  match s.ring.arcFor? t with
  | none => ∅
  | some arc =>
    let chosen := (s.nodesFrom t).take (min factor.all s.ring.nodeCount)
    .ofList <| chosen.mapIdx fun i n => ⟨n.endpoint, arc, decide (factor.full ≤ i)⟩

end ReplicaRing.Placement
