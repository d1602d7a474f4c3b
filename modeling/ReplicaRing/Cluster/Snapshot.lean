import ReplicaRing.Directory
import ReplicaRing.TokenRing

/-!
# Snapshots of the cluster

A snapshot is one consistent version of the topology: a token ring and the directory of the nodes
that own its tokens. Whoever owns a token is registered, and whoever is registered owns a token,
so quotas taken from the directory can be met by walking the ring.

* `Snapshot.join` puts a ring and a directory together, or says how they disagree.
-/

namespace ReplicaRing

/-- The version of a snapshot. Numbers are taken to stay below `2 ^ 64`: no cluster lives to see as
many versions. -/
structure Epoch where
  number : Nat
  deriving DecidableEq

namespace Epoch

def zero : Epoch := ⟨0⟩

def next (e : Epoch) : Epoch := ⟨e.number + 1⟩

def text (e : Epoch) : String := "epoch " ++ Text.decimal e.number

end Epoch

/-- A ring and a directory with the same nodes. -/
structure Snapshot (T : Type) [Token T] where
  epoch : Epoch
  ring : TokenRing T
  directory : Directory
  registered : ∀ id ∈ ring.nodes, (directory.node? id).isSome
  owning : ∀ n ∈ directory.nodes, n.id ∈ ring.nodes

/-- Why a topology is refused. -/
inductive TopologyError (T : Type)
  | tokenClash (clash : TokenClash T)
  | registration (error : RegistrationError)
  | unregisteredOwner (id : NodeId)
  | idleNode (id : NodeId) (endpoint : Endpoint)
  deriving DecidableEq

def TopologyError.message {T : Type} [Token T] : TopologyError T → String
  | .tokenClash clash => clash.message
  | .registration error => error.message
  | .unregisteredOwner id =>
    "Topology error: node " ++ id.text ++ " owns tokens but is not registered in the directory"
  | .idleNode id endpoint =>
    "Topology error: node " ++ id.text ++ " (" ++ endpoint.text ++
      ") is registered but owns no tokens"

namespace Snapshot

variable {T : Type} [Token T]

/-- The snapshot of a cluster without nodes. -/
def empty : Snapshot T where
  epoch := .zero
  ring := .empty
  directory := .empty
  registered _ h := by cases h
  owning _ h := by cases h

instance : Inhabited (Snapshot T) := ⟨empty⟩

/-- Puts a ring and a directory together. The least owner that is not registered is reported,
or else the least registered node that owns nothing. -/
def join (epoch : Epoch) (ring : TokenRing T) (directory : Directory) :
    Except (TopologyError T) (Snapshot T) :=
  match hr : ring.nodes.find? fun id => (directory.node? id).isNone with
  | some id => .error (.unregisteredOwner id)
  | none =>
    match ho : directory.nodes.find? fun n => decide (n.id ∉ ring.nodes) with
    | some n => .error (.idleNode n.id n.endpoint)
    | none =>
      .ok
        { epoch, ring, directory
          registered := fun id hid => by
            simpa [Option.isSome_iff_ne_none] using List.find?_eq_none.1 hr id hid
          owning := fun n hn => by simpa using List.find?_eq_none.1 ho n hn }

/-- The registered nodes in the order in which the walk from `t` yields them. -/
def nodesFrom (s : Snapshot T) (t : T) : List Node :=
  (s.ring.walk t).toList.filterMap s.directory.node?

end Snapshot

end ReplicaRing
