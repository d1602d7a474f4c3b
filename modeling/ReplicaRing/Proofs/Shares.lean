import ReplicaRing.Proofs.Refinement

/-!
# The share of each datacenter

What a placement spread over racks gives to one datacenter, said without the walk: the first nodes
of its preference, the full replicas before the transient ones, however the placements of several
datacenters are interleaved.

* `placedIn`: the nodes of a datacenter that get replicas; `placedOrder`: those of all datacenters.
* `grade_rackAware`, `within_rackAware`: the placement in terms of these nodes.
* `share_eq_preference`: the share of a datacenter as leaders and followers on the walk.
-/

namespace ReplicaRing

variable {T : Type}

/-- The endpoint of a replica, and whether the replica is transient. -/
def Replica.grade (r : Replica T) : Endpoint × Bool := (r.endpoint, r.isTransient)

/-- The replicas at endpoints of a datacenter, in placement order. -/
def ReplicaSet.within (rs : ReplicaSet T) (d : Directory) (dc : String) : List (Replica T) :=
  rs.replicas.filter fun r => decide (r.endpoint ∈ d.endpointsIn dc)

/-- The racks that the nodes at these endpoints stand on. -/
def Directory.racksAt (d : Directory) (es : List Endpoint) : Finset String :=
  (es.filterMap fun e => (d.locationAt? e).map Location.rack).toFinset

theorem Directory.mem_endpointsIn_iff {d : Directory} {n : Node} (h : n ∈ d.nodes) {dc : String} :
    n.endpoint ∈ d.endpointsIn dc ↔ n.datacenter = dc := by
  rw [mem_endpointsIn]
  constructor
  · rintro ⟨m, hm, hdc, he⟩
    rw [← eq_of_endpoint_eq hm h he]
    exact hdc
  · exact fun hdc => ⟨n, h, hdc, rfl⟩

theorem Directory.racksAt_map_endpoint {d : Directory} {ns : List Node} (h : ns ⊆ d.nodes) :
    d.racksAt (ns.map Node.endpoint) = racksOf ns := by
  unfold racksAt racksOf
  congr 1
  induction ns with
  | nil => rfl
  | cons n ns ih =>
    have hn : (d.locationAt? n.endpoint).map Location.rack = some n.rack := by
      rw [locationAt?_of_mem (h (.head _))]
      rfl
    rw [List.map_cons, List.filterMap_cons, hn, List.map_cons]
    exact congrArg _ (ih fun m hm => h (.tail _ hm))

namespace Placement

theorem factorFor_of_get? {q : Quotas} {dc : String} {rf : ReplicationFactor}
    (h : q.get? dc = some rf) : q.factorFor dc = rf := by
  rw [Quotas.factorFor, h]
  rfl

/-! ## Marked replicas -/

theorem grade_tagged (full : Nat) (arc : Arc T) (ns : List Node) :
    (tagged full arc 0 (ns.map Node.endpoint)).map Replica.grade =
      ns.mapIdx fun i n => (n.endpoint, decide (full ≤ i)) := by
  refine List.ext_getElem (by simp [tagged]) fun i hi hi' => ?_
  simp [tagged, Replica.grade]

theorem endpoint_tagged (full : Nat) (arc : Arc T) (start : Nat) (es : List Endpoint) :
    (tagged full arc start es).map Replica.endpoint = es := by
  refine List.ext_getElem (by simp [tagged]) fun i hi hi' => ?_
  simp [tagged]

/-- The full replicas are those placed before the quota of full replicas was used up. -/
theorem length_full_tagged (full : Nat) (arc : Arc T) (start : Nat) (es : List Endpoint) :
    ((tagged full arc start es).filter fun r => !r.isTransient).length =
      min (full - start) es.length := by
  induction es generalizing start with
  | nil => simp [tagged]
  | cons e es ih =>
    rw [tagged_cons, List.filter_cons]
    by_cases h : full ≤ start
    · rw [if_neg (by simpa using h), ih]
      omega
    · rw [if_pos (by simpa using h), List.length_cons, ih, List.length_cons]
      omega

section
variable [Token T] (q : Quotas) (s : Snapshot T) (t : T)

/-! ## The nodes placed -/

/-- The nodes of a datacenter that hold replicas, in the order of placement. -/
def placedIn (dc : String) : List Node :=
  (preference (s.walkIn t dc)).take (q.factorFor dc).all

theorem length_preference_walkIn (dc : String) :
    (preference (s.walkIn t dc)).length = (s.directory.endpointsIn dc).length := by
  rw [(preference_perm _).length_eq, s.length_walkIn]

theorem length_placedIn (dc : String) :
    (placedIn q s t dc).length = q.need s.directory dc := by
  rw [placedIn, List.length_take, length_preference_walkIn, Quotas.need]

/-- What is placed at any time of the walk. -/
theorem placed_procedure {ns : List Node} (h : ns <+: s.nodesFrom t) (dc : String) :
    ((procedure q s.directory ns).ledgers dc).placed =
      (eligible (s.directory.rackSet dc) (ns.filter fun n => decide (n.datacenter = dc))).take
        (q.factorFor dc).all := by
  have hf := (follows_procedure (q := q) (h.sublist.nodup (s.nodup_nodesFrom t))
    (fun _ hn => rack_mem_of_mem_nodesFrom s t (h.subset hn)) dc).placed
  have hlen : (eligible (s.directory.rackSet dc)
      (ns.filter fun n => decide (n.datacenter = dc))).length ≤
      (s.directory.endpointsIn dc).length := by
    rw [← s.length_walkIn t]
    exact (length_eligible_le _ _).trans (h.filter _).length_le
  rw [hf, Quotas.need]
  rcases Nat.le_total (q.factorFor dc).all (s.directory.endpointsIn dc).length with h | h
  · rw [Nat.min_eq_left h]
  · rw [Nat.min_eq_right h, List.take_of_length_le hlen, List.take_of_length_le (hlen.trans h)]

theorem placed_eq (dc : String) :
    ((procedure q s.directory (s.nodesFrom t)).ledgers dc).placed = placedIn q s t dc := by
  rw [placed_procedure q s t List.prefix_rfl, ← s.racksOf_walkIn t]
  exact congrArg (List.take _) (eligible_eq_preference _)

variable {q s t} in
theorem mem_placedIn {dc : String} {n : Node} (h : n ∈ placedIn q s t dc) :
    n ∈ s.directory.nodes ∧ n.datacenter = dc :=
  Snapshot.mem_walkIn.1 ((preference_perm _).mem_iff.1 (List.mem_of_mem_take h))

theorem nodup_placedIn (dc : String) : (placedIn q s t dc).Nodup :=
  (nodup_preference (s.nodup_walkIn t dc)).sublist (List.take_sublist _ _)

/-- The nodes of all datacenters that hold replicas, in the order of placement. -/
def placedOrder : List Node := (procedure q s.directory (s.nodesFrom t)).order

theorem filter_placedOrder (dc : String) :
    (placedOrder q s t).filter (fun n => decide (n.datacenter = dc)) = placedIn q s t dc := by
  rw [placedOrder, filter_order_procedure (s.nodup_nodesFrom t) fun _ =>
    rack_mem_of_mem_nodesFrom s t, placed_eq]

variable {q s t} in
theorem mem_placedOrder {n : Node} :
    n ∈ placedOrder q s t ↔ n ∈ placedIn q s t n.datacenter := by
  rw [← filter_placedOrder, List.mem_filter]
  simp

/-! ## The replicas placed -/

variable {s t} in
theorem replicas_rackAware {arc : Arc T} (h : s.ring.arcFor? t = some arc) :
    (rackAware q s t).replicas = (placedOrder q s t).map fun n =>
      ⟨n.endpoint, arc,
        decide ((q.factorFor n.datacenter).full ≤ (placedIn q s t n.datacenter).idxOf n)⟩ := by
  rw [replicas_rackAware_of_arc q s t h, Run.replicas, placedOrder]
  simp only [placed_eq]

/-- What is placed, but for the arc: also for a ring without tokens, where it is nothing. -/
theorem grade_rackAware : (rackAware q s t).replicas.map Replica.grade =
    (placedOrder q s t).map fun n => (n.endpoint,
      decide ((q.factorFor n.datacenter).full ≤ (placedIn q s t n.datacenter).idxOf n)) := by
  cases h : s.ring.arcFor? t with
  | none =>
    rw [rackAware, h, placedOrder, Snapshot.nodesFrom_of_arcFor?_eq_none h]
    rfl
  | some arc =>
    rw [replicas_rackAware q h, List.map_map]
    rfl

theorem endpoints_rackAware :
    (rackAware q s t).endpoints = (placedOrder q s t).map Node.endpoint := by
  have h := congrArg (List.map Prod.fst) (grade_rackAware q s t)
  rw [List.map_map, List.map_map] at h
  exact h

variable {s t} in
theorem within_rackAware {arc : Arc T} (h : s.ring.arcFor? t = some arc) (dc : String) :
    (rackAware q s t).within s.directory dc =
      tagged (q.factorFor dc).full arc 0 ((placedIn q s t dc).map Node.endpoint) := by
  have hsub : ∀ n ∈ placedOrder q s t, (decide (n.endpoint ∈ s.directory.endpointsIn dc)) =
      decide (n.datacenter = dc) := fun n hn => by
    rw [decide_eq_decide]
    exact Directory.mem_endpointsIn_iff (mem_placedIn (mem_placedOrder.1 hn)).1
  have hfilter : ((placedOrder q s t).filter fun n =>
      decide (n.endpoint ∈ s.directory.endpointsIn dc)) = placedIn q s t dc := by
    rw [List.filter_congr hsub, filter_placedOrder]
  rw [ReplicaSet.within, replicas_rackAware q h, List.filter_map]
  refine (congrArg _ hfilter).trans ?_
  rw [← List.length_nil, ← map_idxOf_eq_tagged _ _ (nodup_placedIn q s t dc)]
  refine List.map_congr_left fun n hn => ?_
  rw [(mem_placedIn hn).2]
  rfl

theorem placedIn_of_arcFor?_eq_none (h : s.ring.arcFor? t = none) (dc : String) :
    placedIn q s t dc = [] := by
  rw [placedIn, Snapshot.walkIn, Snapshot.nodesFrom_of_arcFor?_eq_none h]
  exact List.take_nil

theorem grade_within (dc : String) : ((rackAware q s t).within s.directory dc).map Replica.grade =
    (placedIn q s t dc).mapIdx fun i n =>
      (n.endpoint, decide ((q.factorFor dc).full ≤ i)) := by
  cases h : s.ring.arcFor? t with
  | none =>
    rw [placedIn_of_arcFor?_eq_none q s t h, rackAware, h]
    rfl
  | some arc => rw [within_rackAware q h, grade_tagged]

theorem endpoints_within (dc : String) :
    ((rackAware q s t).within s.directory dc).map Replica.endpoint =
      (placedIn q s t dc).map Node.endpoint := by
  cases h : s.ring.arcFor? t with
  | none =>
    rw [placedIn_of_arcFor?_eq_none q s t h, rackAware, h]
    rfl
  | some arc => rw [within_rackAware q h, endpoint_tagged]

variable {q s t} in
theorem datacenter_mem_keys {n : Node} (hn : n ∈ placedOrder q s t) : n.datacenter ∈ q.keys := by
  have hn := mem_placedOrder.1 hn
  by_contra hk
  have h0 := length_placedIn q s t n.datacenter
  rw [need_of_not_mem hk, List.length_eq_zero_iff] at h0
  rw [h0] at hn
  cases hn

theorem registered_rackAware : ∀ r ∈ (rackAware q s t).replicas,
    ∃ dc ∈ q.keys, r.endpoint ∈ s.directory.endpointsIn dc := by
  intro r hr
  have he : r.endpoint ∈ (rackAware q s t).endpoints := List.mem_map_of_mem hr
  rw [endpoints_rackAware] at he
  obtain ⟨n, hn, he⟩ := List.mem_map.1 he
  refine ⟨n.datacenter, datacenter_mem_keys hn, he ▸ ?_⟩
  exact (Directory.mem_endpointsIn_iff (mem_placedIn (mem_placedOrder.1 hn)).1).2 rfl

/-- **The share of a datacenter** is the first part of the nodes that lead their racks on the walk
and, after them, those that follow; a replica is transient if it stands past the full ones. -/
theorem share_eq_preference {dc : String} {rf : ReplicationFactor} (h : q.get? dc = some rf) :
    let walk := s.walkIn t dc
    ((rackAware q s t).within s.directory dc).map Replica.grade =
        ((leaders walk ++ followers walk).take (min rf.all walk.length)).mapIdx
          (fun i n => (n.endpoint, decide (rf.full ≤ i))) ∧
      walk.length = (s.directory.endpointsIn dc).length ∧
      ∀ r ∈ (rackAware q s t).replicas, ∃ dc ∈ q.keys, r.endpoint ∈ s.directory.endpointsIn dc := by
  refine ⟨?_, s.length_walkIn t dc, registered_rackAware q s t⟩
  have hlen : (s.walkIn t dc).length = (preference (s.walkIn t dc)).length :=
    (preference_perm _).length_eq.symm
  change _ = ((preference (s.walkIn t dc)).take (min rf.all (s.walkIn t dc).length)).mapIdx _
  rw [hlen, ← List.take_eq_take_min, grade_within, placedIn, factorFor_of_get? h]

end

/-- Quotas for the sample cluster: transient in the west, full only in the east. -/
def fourNodesQuotas : Quotas := .ofList [("west", ⟨2, 1, by decide⟩), ("east", .ofFull 1)]

/-- From token 45 the walk meets both nodes on rack `a` before the one on rack `b`. -/
theorem share_fourNodes :
    let placed := rackAware fourNodesQuotas .fourNodes (⟨45⟩ : LongToken)
    let n1 := Snapshot.numbered 1 "west" "a"
    let n3 := Snapshot.numbered 3 "west" "b"
    let n2 := Snapshot.numbered 2 "west" "a"
    let n4 := Snapshot.numbered 4 "east" "a"
    fourNodesQuotas.get? "west" = some ⟨2, 1, by decide⟩ ∧
      (placed.within Snapshot.fourNodes.directory "west").map Replica.grade =
        [(n1.endpoint, false), (n3.endpoint, false), (n2.endpoint, true)] ∧
      n4.endpoint ∈ placed.endpoints ∧
      ∃ dc ∈ fourNodesQuotas.keys, n4.endpoint ∈ Snapshot.fourNodes.directory.endpointsIn dc := by
  have h : fourNodesQuotas.get? "west" = some ⟨2, 1, by decide⟩ := by decide
  obtain ⟨h1, -, h3⟩ := share_eq_preference fourNodesQuotas .fourNodes (⟨45⟩ : LongToken) h
  refine ⟨h, h1.trans (by decide), by decide, ?_⟩
  obtain ⟨r, hr, he⟩ := List.mem_map.1 (by decide : (Snapshot.numbered 4 "east" "a").endpoint ∈
    (rackAware fourNodesQuotas .fourNodes (⟨45⟩ : LongToken)).endpoints)
  exact he ▸ h3 r hr

end Placement

end ReplicaRing
