import ReplicaRing.Strategy

/-!
# Replicas of the whole ring

Repair and streaming work on arcs rather than on tokens. A replica map holds the replicas of
every arc of one snapshot, in ascending order of the arcs' right ends.

* `Strategy.replicaMap` computes the map.
* `forToken?` finds the replicas of a token, and `replicasOf` the arcs that an endpoint holds.
-/

namespace ReplicaRing

/-- The replicas of each arc of a snapshot. -/
structure ReplicaMap (T : Type) where
  epoch : Epoch
  entries : List (Arc T × ReplicaSet T)

/-- Places the replicas of every arc. -/
def Strategy.replicaMap {T : Type} [Token T] (strategy : Strategy) (s : Snapshot T) :
    ReplicaMap T :=
  ⟨s.epoch, s.ring.arcs.map fun arc => (arc, strategy.place s arc.right)⟩

namespace ReplicaMap

variable {T : Type}

/-- The number of arcs. -/
def size (m : ReplicaMap T) : Nat := m.entries.length

def isEmpty (m : ReplicaMap T) : Bool := m.entries.isEmpty

/-- The replicas of the arc that `t` lies on: the first arc that ends at or after `t`, or the
first of all if every arc ends before `t`. -/
def forToken? [Token T] (m : ReplicaMap T) (t : T) : Option (ReplicaSet T) :=
  let before := (m.entries.takeWhile fun e => decide (e.1.right < t)).length
  (m.entries[if before = m.size then 0 else before]?).map Prod.snd

/-- The replicas that an endpoint holds, by arc. -/
def replicasOf (m : ReplicaMap T) (e : Endpoint) : List (Replica T) :=
  m.entries.filterMap fun entry => entry.2.at? e

end ReplicaMap

end ReplicaRing
