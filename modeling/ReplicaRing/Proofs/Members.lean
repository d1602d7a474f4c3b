import Mathlib.Data.Finset.Card
import Mathlib.Data.Finset.Dedup
import Mathlib.Data.List.Perm.Basic
import ReplicaRing.Cluster.Snapshot
import ReplicaRing.Proofs.Arcs
import ReplicaRing.Proofs.RingWalk
import ReplicaRing.Token.Long

/-!
# The members of a snapshot

What the indexes of a directory count, and that the walk of a snapshot meets every member once:

* `Directory.rackSet` is the set of racks of a datacenter; `rackCount` is its size.
* `Snapshot.nodesFrom_perm`: the nodes that a walk yields are the registered nodes, so the nodes of
  a datacenter on the walk are as many as the directory knows there (`length_walkIn`), on the racks
  that it knows there (`racksOf_walkIn`).
-/

namespace ReplicaRing

/-- The racks that nodes of a list stand on. -/
def racksOf (ns : List Node) : Finset String := (ns.map Node.rack).toFinset

@[simp] theorem mem_racksOf {ns : List Node} {rack : String} :
    rack ∈ racksOf ns ↔ ∃ n ∈ ns, n.rack = rack := by
  simp [racksOf]

theorem racksOf_append (a b : List Node) : racksOf (a ++ b) = racksOf a ∪ racksOf b := by
  simp [racksOf]

theorem racksOf_cons (n : Node) (ns : List Node) :
    racksOf (n :: ns) = insert n.rack (racksOf ns) := by
  simp [racksOf]

theorem racksOf_concat (a : List Node) (n : Node) :
    racksOf (a ++ [n]) = insert n.rack (racksOf a) := by
  rw [racksOf_append, Finset.union_comm]
  rfl

theorem racksOf_subset {a b : List Node} (h : a ⊆ b) : racksOf a ⊆ racksOf b := by
  intro rack hr
  obtain ⟨n, hn, rfl⟩ := mem_racksOf.1 hr
  exact mem_racksOf.2 ⟨n, h hn, rfl⟩

theorem card_racksOf_le (ns : List Node) : (racksOf ns).card ≤ ns.length := by
  rw [← List.length_map Node.rack]
  exact List.toFinset_card_le _

namespace Directory

/-- The racks with a node in the datacenter. -/
def rackSet (d : Directory) (dc : String) : Finset String := (d.racksIn dc).keys.toFinset

theorem mem_rackSet {d : Directory} {dc rack : String} :
    rack ∈ d.rackSet dc ↔ ∃ n ∈ d.nodes, n.datacenter = dc ∧ n.rack = rack := by
  rw [rackSet, List.mem_toFinset, mem_keys_racksIn]
  simp only [Node.location_eq_iff]

theorem rackCount_eq (d : Directory) (dc : String) : d.rackCount dc = (d.rackSet dc).card := by
  have hn : (d.racksIn dc).keys.Nodup := (d.racksIn dc).ascending.nodup
  rw [rackSet, List.toFinset_card_of_nodup hn, OrderedMap.keys, List.length_map]
  rfl

theorem length_endpointsIn (d : Directory) (dc : String) :
    (d.endpointsIn dc).length = (d.nodes.filter fun n => decide (n.datacenter = dc)).length := by
  have hnodup : ((d.nodes.filter fun n => decide (n.datacenter = dc)).map Node.endpoint).Nodup :=
    d.endpoints_nodup.sublist (List.filter_sublist.map _)
  have hperm := (List.perm_ext_iff_of_nodup (ascendingSet_ascending _).nodup.of_map hnodup).2
    fun e => mem_ascendingSet
  rw [endpointsIn_eq, Registry.endpointsWhere, hperm.length_eq, List.length_map]

theorem nodup_nodes (d : Directory) : d.nodes.Nodup := d.endpoints_nodup.of_map _

/-- Registered nodes are told apart by their endpoints. -/
theorem eq_of_endpoint_eq {d : Directory} {m n : Node} (hm : m ∈ d.nodes) (hn : n ∈ d.nodes)
    (h : m.endpoint = n.endpoint) : m = n :=
  List.inj_on_of_nodup_map d.endpoints_nodup hm hn h

theorem node?_of_mem {d : Directory} {n : Node} (h : n ∈ d.nodes) : d.node? n.id = some n :=
  Registry.node?_eq_some_iff.2 ⟨h, rfl⟩

theorem locationAt?_of_mem {d : Directory} {n : Node} (h : n ∈ d.nodes) :
    d.locationAt? n.endpoint = some n.location := by
  have hid : d.idAt? n.endpoint = some n.id := (d.peers_get? _ _).2 ⟨n, h, rfl, rfl⟩
  rw [locationAt?, hid, Option.bind_some, locationOf?, node?_of_mem h]
  rfl

end Directory

namespace Snapshot

variable {T : Type} [Token T] (s : Snapshot T) (t : T)

theorem map_id_nodesFrom : (s.nodesFrom t).map Node.id = (s.ring.walk t).toList := by
  have hr : ∀ id ∈ (s.ring.walk t).toList, (s.directory.node? id).isSome := fun id h =>
    s.registered id (TokenRing.mem_toList_walk.1 h)
  rw [nodesFrom]
  revert hr
  generalize (s.ring.walk t).toList = ids
  intro hr
  induction ids with
  | nil => rfl
  | cons id ids ih =>
    obtain ⟨n, hn⟩ := Option.isSome_iff_exists.1 (hr id (.head _))
    rw [List.filterMap_cons_some hn, List.map_cons, ih fun i hi => hr i (.tail _ hi),
      (Registry.node?_eq_some_iff.1 hn).2]

theorem length_nodesFrom : (s.nodesFrom t).length = s.ring.nodeCount := by
  rw [← List.length_map Node.id, map_id_nodesFrom, TokenRing.length_toList_walk]

variable {s t} in
theorem mem_nodesFrom {n : Node} : n ∈ s.nodesFrom t ↔ n ∈ s.directory.nodes := by
  rw [nodesFrom, List.mem_filterMap]
  constructor
  · rintro ⟨id, -, hn⟩
    exact (Registry.node?_eq_some_iff.1 hn).1
  · intro hn
    exact ⟨n.id, TokenRing.mem_toList_walk.2 (s.owning n hn), Directory.node?_of_mem hn⟩

theorem nodup_nodesFrom : (s.nodesFrom t).Nodup := by
  refine List.Nodup.of_map Node.id ?_
  rw [map_id_nodesFrom]
  exact s.ring.nodup_toList_walk t

/-- **A walk meets every registered node once.** -/
theorem nodesFrom_perm : (s.nodesFrom t).Perm s.directory.nodes :=
  (List.perm_ext_iff_of_nodup (s.nodup_nodesFrom t) s.directory.nodup_nodes).2 fun _ =>
    mem_nodesFrom

theorem nodup_endpoints_nodesFrom : ((s.nodesFrom t).map Node.endpoint).Nodup :=
  ((s.nodesFrom_perm t).map _).nodup_iff.2 s.directory.endpoints_nodup

/-- The nodes of a datacenter in the order in which the walk from `t` yields them. -/
def walkIn (dc : String) : List Node := (s.nodesFrom t).filter fun n => decide (n.datacenter = dc)

variable {s t} in
theorem mem_walkIn {dc : String} {n : Node} :
    n ∈ s.walkIn t dc ↔ n ∈ s.directory.nodes ∧ n.datacenter = dc := by
  rw [walkIn, List.mem_filter, mem_nodesFrom, decide_eq_true_eq]

theorem nodup_walkIn (dc : String) : (s.walkIn t dc).Nodup := (s.nodup_nodesFrom t).filter _

theorem length_walkIn (dc : String) :
    (s.walkIn t dc).length = (s.directory.endpointsIn dc).length := by
  rw [Directory.length_endpointsIn]
  exact ((s.nodesFrom_perm t).filter _).length_eq

theorem racksOf_walkIn (dc : String) : racksOf (s.walkIn t dc) = s.directory.rackSet dc := by
  ext rack
  simp only [mem_racksOf, mem_walkIn, Directory.mem_rackSet, and_assoc]

variable {s t} in
theorem nodesFrom_of_arcFor?_eq_none (h : s.ring.arcFor? t = none) : s.nodesFrom t = [] := by
  have hring : s.ring.vnodes = [] := List.isEmpty_iff.1 (TokenRing.arcFor?_eq_none_iff.1 h)
  rw [nodesFrom, TokenRing.toList_walk, TokenRing.vnodesFrom, hring]
  rfl

/-! ## A small cluster -/

/-- The node with this number, at an address and on a port of its own. -/
def numbered (number : Nat) (dc rack : String) : Node :=
  ⟨⟨.ofNat 128 number⟩, .v4 (.ofNat 32 number) Endpoint.defaultPort, ⟨dc, rack⟩⟩

/-- Three nodes on two racks in the west and one in the east; the first owns two tokens. -/
def fourNodes : Snapshot LongToken where
  epoch := Epoch.zero.next
  ring := ⟨[⟨⟨10⟩, 1⟩, ⟨⟨20⟩, 2⟩, ⟨⟨30⟩, 4⟩, ⟨⟨40⟩, 3⟩, ⟨⟨50⟩, 1⟩], by decide⟩
  directory := (Directory.ofList [numbered 1 "west" "a", numbered 2 "west" "a",
    numbered 3 "west" "b", numbered 4 "east" "a"]).toOption.get (by decide)
  registered := by decide
  owning := by decide

end Snapshot

end ReplicaRing
