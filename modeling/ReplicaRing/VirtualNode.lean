import ReplicaRing.Node
import ReplicaRing.Partitioner
import ReplicaRing.Text.Numeral

/-!
# Virtual nodes

A virtual node is one position on the ring and the node that owns it. A node owns as many of
them as it likes, and can derive their tokens from its own identity: the token with index `i` of
a node is the partition of the node's hexadecimal digits, a colon and `i` in decimal.
-/

namespace ReplicaRing

/-- A token and the node that owns it. -/
structure VirtualNode (T : Type) where
  token : T
  node : NodeId
  deriving DecidableEq

namespace VirtualNode

variable {T : Type}

/-- The bytes of the key that the token with this index is derived from; they are ASCII. -/
def key (node : NodeId) (index : Nat) : List UInt8 :=
  (node.digits ++ ':' :: Text.writeCount index).map fun c => c.toNat.toUInt8

/-- The virtual node with this index. -/
def ofIndex (p : Partitioner T) (node : NodeId) (index : Nat) : VirtualNode T :=
  ⟨p.partition (key node index), node⟩

/-- The virtual nodes of `count` indices from `start` on. -/
def sequence (p : Partitioner T) (node : NodeId) (start count : Nat) : List (VirtualNode T) :=
  (List.range' start count).map (ofIndex p node)

/-- Virtual nodes are ordered by token, then by node. -/
def compare [Token T] (a b : VirtualNode T) : Ordering :=
  (compareOfLessAndEq a.token b.token).then (compareOfLessAndEq a.node b.node)

def text [Token T] (v : VirtualNode T) : String :=
  "VNode(token=" ++ Token.text v.token ++ ", node=" ++ v.node.text ++ ")"

end VirtualNode

end ReplicaRing
