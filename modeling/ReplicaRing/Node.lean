import ReplicaRing.Endpoint
import ReplicaRing.Text.Hex

/-!
# Nodes

A node has an identity that it keeps for life, an endpoint that it is reached at, and a location
in the hierarchy of failure domains: the datacenter and the rack in it.
-/

namespace ReplicaRing

/-- The identity of a node. -/
structure NodeId where
  number : BitVec 128
  deriving DecidableEq

namespace NodeId

instance : LE NodeId := ⟨fun a b => a.number ≤ b.number⟩
instance : LT NodeId := ⟨fun a b => a.number < b.number⟩
instance : DecidableLE NodeId := fun a b => inferInstanceAs (Decidable (a.number ≤ b.number))
instance : DecidableLT NodeId := fun a b => inferInstanceAs (Decidable (a.number < b.number))

instance : Std.IsLinearOrder NodeId :=
  isLinearOrder_of_key number (fun _ _ h => congrArg mk h) fun _ _ => Iff.rfl

instance : Std.LawfulOrderLT NodeId :=
  lawfulOrderLT_of_key number (fun _ _ => Iff.rfl) fun _ _ => Iff.rfl

instance {n : Nat} : OfNat NodeId n := ⟨⟨.ofNat 128 n⟩⟩

/-- The 32 hexadecimal digits of an identity. -/
def digits (id : NodeId) : List Char := Text.hexPadded 32 id.number.toNat

def text (id : NodeId) : String := String.ofList id.digits

end NodeId

/-- A rack in a datacenter. -/
structure Location where
  datacenter : String
  rack : String
  deriving DecidableEq

namespace Location

/-- Locations are ordered by datacenter, then by rack. -/
def compare (a b : Location) : Ordering :=
  (compareOfLessAndEq a.datacenter b.datacenter).then (compareOfLessAndEq a.rack b.rack)

/-- The names from the top of the hierarchy down. -/
def path (l : Location) : List String := [l.datacenter, l.rack]

instance : LT Location := ⟨fun a b => a.path < b.path⟩
instance : LE Location := ⟨fun a b => ¬b < a⟩
instance : DecidableLT Location := fun a b => inferInstanceAs (Decidable (a.path < b.path))
instance : DecidableLE Location := fun a b => inferInstanceAs (Decidable (¬b < a))

theorem path_inj {a b : Location} (h : a.path = b.path) : a = b := by
  cases a
  cases b
  cases h
  rfl

instance : Std.IsLinearOrder Location := by
  refine isLinearOrder_of_key path (fun _ _ => path_inj) fun a b => ?_
  show ¬b.path < a.path ↔ _
  exact Std.not_lt

instance : Std.LawfulOrderLT Location where
  lt_iff a b := by
    show a.path < b.path ↔ ¬b.path < a.path ∧ ¬¬a.path < b.path
    rw [Classical.not_not]
    exact ⟨fun h => ⟨Std.not_gt_of_lt h, h⟩, fun h => h.2⟩

/-- The order is the one that `compare` decides. -/
theorem compare_eq_lt_iff {a b : Location} : a.compare b = .lt ↔ a < b := by
  show _ ↔ [a.datacenter, a.rack] < [b.datacenter, b.rack]
  unfold compare compareOfLessAndEq
  rw [List.cons_lt_cons_iff]
  by_cases hdc : a.datacenter < b.datacenter
  · simp [hdc]
  · by_cases heq : a.datacenter = b.datacenter
    · by_cases hrack : a.rack < b.rack
      · simp [heq, hrack, List.cons_lt_cons_iff]
      · by_cases heq' : a.rack = b.rack <;> simp [heq, hrack, heq', List.cons_lt_cons_iff]
    · simp [hdc, heq]

def text (l : Location) : String := l.datacenter ++ "/" ++ l.rack

end Location

/-- A registered member of the cluster. -/
structure Node where
  id : NodeId
  endpoint : Endpoint
  location : Location
  deriving DecidableEq

namespace Node

def datacenter (n : Node) : String := n.location.datacenter

def rack (n : Node) : String := n.location.rack

theorem location_eq_iff {n : Node} {dc rack : String} :
    n.location = ⟨dc, rack⟩ ↔ n.datacenter = dc ∧ n.rack = rack := by
  rw [Node.datacenter, Node.rack]
  cases n.location
  exact Iff.of_eq (Location.mk.injEq ..)

end Node

end ReplicaRing
