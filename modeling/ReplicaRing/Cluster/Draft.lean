import ReplicaRing.Cluster.Snapshot

/-!
# Drafts of the next topology

A draft records nodes and virtual nodes as they are edited, consistent or not. Freezing it sorts
them into a snapshot and is where every fault is found.

* `Edit` lists the edits, and `Draft.apply` is what each does to a draft.
* `Draft.freeze` makes a snapshot, or reports the first of: a token claimed twice, a node that
  collides with an earlier one, an owner that is not registered, a node that owns nothing.
* `Snapshot.toDraft` starts a draft from a snapshot.
-/

namespace ReplicaRing

/-- A topology under construction. -/
structure Draft (T : Type) where
  nodes : List Node
  vnodes : List (VirtualNode T)
  deriving DecidableEq

/-- A change to a topology. -/
inductive Edit (T : Type)
  /-- Registers a node that owns these tokens. -/
  | add (node : Node) (tokens : List T)
  /-- Registers a node with tokens derived from its identity. -/
  | addDerived (node : Node) (count : Nat)
  /-- Drops a node and its tokens. -/
  | remove (id : NodeId)
  /-- Replaces the tokens of a node. -/
  | move (id : NodeId) (tokens : List T)
  /-- Changes where a node stands. -/
  | relocate (id : NodeId) (location : Location)
  deriving DecidableEq

namespace Draft

variable {T : Type}

def empty : Draft T := ⟨[], []⟩

instance : Inhabited (Draft T) := ⟨empty⟩

/-- Registers a node that owns these tokens. -/
def add (d : Draft T) (node : Node) (tokens : List T) : Draft T :=
  ⟨d.nodes ++ [node], d.vnodes ++ tokens.map (⟨·, node.id⟩)⟩

/-- Drops what belongs to an identity. -/
def remove (d : Draft T) (id : NodeId) : Draft T :=
  ⟨d.nodes.filter fun n => decide (n.id ≠ id), d.vnodes.filter fun v => decide (v.node ≠ id)⟩

/-- Replaces the tokens of an identity. -/
def move (d : Draft T) (id : NodeId) (tokens : List T) : Draft T :=
  { d with
    vnodes := (d.vnodes.filter fun v => decide (v.node ≠ id)) ++ tokens.map (⟨·, id⟩) }

/-- Changes the location of every node with this identity. -/
def relocate (d : Draft T) (id : NodeId) (location : Location) : Draft T :=
  { d with nodes := d.nodes.map fun n => if n.id = id then { n with location } else n }

/-! ## Derived tokens -/

/-- The number of indices that tokens are derived from. -/
def indexCount : Nat := UInt64.size

variable [Token T]

/-- Goes through `steps` indices from `index` on for `count` tokens of a node that are not
`taken`, and not found before. -/
def deriveTokens (p : Partitioner T) (node : NodeId) :
    (steps index count : Nat) → (taken : List T) → List T
  | 0, _, _, _ => []
  | steps + 1, index, count, taken =>
    if count = 0 then []
    else
      let t := (VirtualNode.ofIndex p node index).token
      if t ∈ taken then deriveTokens p node steps (index + 1) count taken
      else t :: deriveTokens p node steps (index + 1) (count - 1) (t :: taken)

/-- Registers a node with the first `count` of its derived tokens that the draft does not bind. -/
def addDerived (p : Partitioner T) (d : Draft T) (node : Node) (count : Nat) : Draft T :=
  d.add node (deriveTokens p node.id indexCount 0 count (d.vnodes.map VirtualNode.token))

/-! ## Edits -/

/-- Carries out an edit. -/
def apply (p : Partitioner T) (d : Draft T) : Edit T → Draft T
  | .add node tokens => d.add node tokens
  | .addDerived node count => d.addDerived p node count
  | .remove id => d.remove id
  | .move id tokens => d.move id tokens
  | .relocate id location => d.relocate id location

/-- Carries out edits in turn. -/
def applyAll (p : Partitioner T) (d : Draft T) (edits : List (Edit T)) : Draft T :=
  edits.foldl (apply p) d

/-- The snapshot with the nodes and virtual nodes of the draft. -/
def freeze (d : Draft T) (epoch : Epoch) : Except (TopologyError T) (Snapshot T) :=
  match TokenRing.ofList d.vnodes with
  | .error clash => .error (.tokenClash clash)
  | .ok ring =>
    match Directory.ofList d.nodes with
    | .error error => .error (.registration error)
    | .ok directory => Snapshot.join epoch ring directory

end Draft

/-- The draft that describes a snapshot. -/
def Snapshot.toDraft {T : Type} [Token T] (s : Snapshot T) : Draft T :=
  ⟨s.directory.nodes, s.ring.vnodes⟩

end ReplicaRing
