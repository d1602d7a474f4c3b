import ReplicaRing.Proofs.Shares
import ReplicaRing.Strategy

/-!
# Queues for replicas

Either strategy serves the first nodes of a queue: the whole walk, or for each datacenter the
preference of its nodes on the walk. What a strategy places is determined by which nodes it serves
and by their places in their queues.

* `Strategy.queue`, `Strategy.factorIn`, `Strategy.served`: the queues, how many replicas go to
  each, and the nodes that hold them.
* `Strategy.grade_place`: the placement in terms of the nodes served.
-/

namespace ReplicaRing

variable {T : Type}

namespace Placement

variable [Token T]

theorem replicas_inOrder {f : ReplicationFactor} {s : Snapshot T} {t : T} {arc : Arc T}
    (h : s.ring.arcFor? t = some arc) : (inOrder f s t).replicas =
      tagged f.full arc 0 (((s.nodesFrom t).take f.all).map Node.endpoint) := by
  have hnodup : (((s.nodesFrom t).take f.all).map Node.endpoint).Nodup := by
    rw [List.map_take]
    exact (s.nodup_endpoints_nodesFrom t).sublist (List.take_sublist _ _)
  have hlist : ((s.nodesFrom t).take f.all).mapIdx
      (fun i n => (⟨n.endpoint, arc, decide (f.full ≤ i)⟩ : Replica T)) =
      tagged f.full arc 0 (((s.nodesFrom t).take f.all).map Node.endpoint) := by
    refine List.ext_getElem (by simp [tagged]) fun i hi hi' => ?_
    simp [tagged]
  rw [inOrder, h]
  dsimp only
  rw [← s.length_nodesFrom t, ← List.take_eq_take_min, hlist, ReplicaSet.replicas_ofList]
  rw [endpoint_tagged]
  exact hnodup

theorem grade_inOrder (f : ReplicationFactor) (s : Snapshot T) (t : T) :
    (inOrder f s t).replicas.map Replica.grade = ((s.nodesFrom t).take f.all).map fun n =>
      (n.endpoint, decide (f.full ≤ ((s.nodesFrom t).take f.all).idxOf n)) := by
  cases h : s.ring.arcFor? t with
  | none =>
    simp only [inOrder, h, Snapshot.nodesFrom_of_arcFor?_eq_none h, List.take_nil]
    rfl
  | some arc =>
    have hnodup := (s.nodup_nodesFrom t).sublist (List.take_sublist f.all _)
    rw [← List.nil_append ((s.nodesFrom t).take f.all)] at hnodup
    have hmark := map_idxOf_eq_tagged f.full arc hnodup
    rw [replicas_inOrder h, ← List.length_nil, ← hmark, List.map_map]
    rfl

end Placement

namespace Strategy

open Placement

variable [Token T] (σ : Strategy) (s : Snapshot T) (t : T)

/-- The nodes that compete for the replicas of a datacenter, in the order in which they get them. -/
def queue (dc : String) : List Node :=
  match σ with
  | simple _ => s.nodesFrom t
  | networkTopology _ => preference (s.walkIn t dc)

/-- The number of replicas for the queue of a datacenter. -/
def factorIn (dc : String) : ReplicationFactor :=
  match σ with
  | simple f => f
  | networkTopology q => q.factorFor dc

/-- The nodes of a queue that hold replicas. -/
def served (dc : String) : List Node := (σ.queue s t dc).take (σ.factorIn dc).all

/-- The nodes that hold replicas, in the order of placement. -/
def chosen : List Node :=
  match σ with
  | simple f => (s.nodesFrom t).take f.all
  | networkTopology q => placedOrder q s t

theorem nodup_queue (dc : String) : (σ.queue s t dc).Nodup := by
  cases σ with
  | simple f => exact s.nodup_nodesFrom t
  | networkTopology q => exact nodup_preference (s.nodup_walkIn t dc)

variable {σ s t} in
theorem mem_queue {dc : String} {n : Node} (h : n ∈ σ.queue s t dc) : n ∈ s.directory.nodes := by
  cases σ with
  | simple f => exact Snapshot.mem_nodesFrom.1 h
  | networkTopology q => exact (Snapshot.mem_walkIn.1 ((preference_perm _).mem_iff.1 h)).1

variable {σ s t} in
theorem mem_chosen {n : Node} : n ∈ σ.chosen s t ↔ n ∈ σ.served s t n.datacenter := by
  cases σ with
  | simple f => rfl
  | networkTopology q => exact mem_placedOrder

variable {σ s t} in
theorem mem_nodes_of_mem_chosen {n : Node} (h : n ∈ σ.chosen s t) : n ∈ s.directory.nodes :=
  mem_queue (List.mem_of_mem_take (mem_chosen.1 h))

/-- **What a strategy places**: a replica at each node it serves, which is transient if the node
stands past the full replicas of its queue. -/
theorem grade_place : (σ.place s t).replicas.map Replica.grade = (σ.chosen s t).map fun n =>
    (n.endpoint,
      decide ((σ.factorIn n.datacenter).full ≤ (σ.served s t n.datacenter).idxOf n)) := by
  cases σ with
  | simple f => exact grade_inOrder f s t
  | networkTopology q => exact grade_rackAware q s t

theorem endpoints_place : (σ.place s t).endpoints = (σ.chosen s t).map Node.endpoint := by
  have h := congrArg (List.map Prod.fst) (σ.grade_place s t)
  rw [List.map_map, List.map_map] at h
  exact h

variable {σ s t} in
theorem mem_endpoints_place {e : Endpoint} :
    e ∈ (σ.place s t).endpoints ↔ ∃ n ∈ σ.chosen s t, n.endpoint = e := by
  rw [endpoints_place, List.mem_map]

variable {σ s t} in
theorem endpoint_mem_place {n : Node} (hn : n ∈ s.directory.nodes) :
    n.endpoint ∈ (σ.place s t).endpoints ↔ n ∈ σ.chosen s t := by
  rw [mem_endpoints_place]
  constructor
  · rintro ⟨m, hm, he⟩
    rw [← Directory.eq_of_endpoint_eq (mem_nodes_of_mem_chosen hm) hn he]
    exact hm
  · exact fun h => ⟨n, h, rfl⟩

end Strategy

end ReplicaRing
