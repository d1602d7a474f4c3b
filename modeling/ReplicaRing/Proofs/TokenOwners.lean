import Mathlib.Data.List.Find
import ReplicaRing.Proofs.Primary
import ReplicaRing.Proofs.ReplicaMap

/-!
# Owners of tokens as primary replicas

The first replica of a placement is always a full one. Under either strategy it goes to the first
node on the walk for which replicas are wanted at all. A walk begins at the owner of the token that
serves the one searched for, so a node whose replicas are wanted leads the placements of its tokens.

* `Snapshot.head?_nodesFrom_of_mem_tokensOf`: a walk from a token begins at its owner.
* `Strategy.head?_chosen`: whom a strategy serves first.
* `Strategy.map_grade_primary?`: so who holds the primary replica, and that it is full.
* `Strategy.exists_primary?_of_mem_tokensOf`: an owner is the primary of its tokens.
* `Strategy.owners_lead`: what this says of each strategy and of what an owner holds.
-/

namespace ReplicaRing

variable {T : Type} [Token T]

theorem ReplicationFactor.full_pos {f : ReplicationFactor} (h : 0 < f.all) : 0 < f.full := by
  have hzero := f.transient_eq_zero
  unfold all at h
  omega

/-! ## Where a walk begins -/

namespace TokenRing

variable {r : TokenRing T} {t x : T}

/-- A token of the ring is served by itself. -/
theorem firstToken?_of_mem (h : x ∈ r.tokens) : r.firstToken? x = some x := by
  obtain ⟨i, hi⟩ := List.mem_iff_getElem?.1 h
  have hfirst : r.firstIndex? x = some i :=
    firstIndex?_eq_some_iff.2 ⟨lt_size_of_getElem? hi, .inl (countBelow_of_getElem? hi)⟩
  rw [firstToken?, hfirst, Option.bind_some, hi]

/-- A walk begins at the owner of the token that serves `t`. -/
theorem head?_toList_walk (h : r.firstToken? t = some x) :
    ∃ id, (r.walk t).toList.head? = some id ∧ r.ownerOf? x = some id := by
  rw [firstToken?, Option.bind_eq_some_iff] at h
  obtain ⟨i, hi, hx⟩ := h
  rw [tokens, List.getElem?_map, Option.map_eq_some_iff] at hx
  obtain ⟨v, hv, rfl⟩ := hx
  refine ⟨v.node, ?_, ownerOf?_eq_some_iff.2 (List.mem_of_getElem? hv)⟩
  have hlt : i < r.owners.length := by
    rw [owners, List.length_map]
    exact (firstIndex?_eq_some_iff.1 hi).1
  rw [toList_walk, head?_eraseDups, ← rotate_owners, hi, Option.getD_some, List.head?_rotate hlt,
    owners, List.getElem?_map, hv]
  rfl

end TokenRing

namespace Snapshot

variable {s : Snapshot T} {t x : T} {n : Node}

theorem head?_nodesFrom (h : s.ring.firstToken? t = some x) :
    ∃ n, (s.nodesFrom t).head? = some n ∧ s.ring.ownerOf? x = some n.id := by
  obtain ⟨id, hhead, howner⟩ := TokenRing.head?_toList_walk h
  rw [← map_id_nodesFrom, List.head?_map, Option.map_eq_some_iff] at hhead
  obtain ⟨n, hn, rfl⟩ := hhead
  exact ⟨n, hn, howner⟩

theorem mem_nodes_of_head? (h : (s.nodesFrom t).head? = some n) : n ∈ s.directory.nodes :=
  mem_nodesFrom.1 (List.mem_of_head? h)

/-- A walk from a token of a node begins at the node. -/
theorem head?_nodesFrom_of_mem_tokensOf (hn : n ∈ s.directory.nodes)
    (ht : t ∈ s.ring.tokensOf n.id) : (s.nodesFrom t).head? = some n := by
  have hv := TokenRing.mem_tokensOf.1 ht
  obtain ⟨m, hm, howner⟩ :=
    head?_nodesFrom (TokenRing.firstToken?_of_mem (List.mem_map_of_mem hv))
  rw [TokenRing.ownerOf?_eq_some_iff.2 hv, Option.some.injEq] at howner
  rw [hm, s.directory.ascending.eq_of_key_eq (mem_nodes_of_head? hm) hn howner.symm]

end Snapshot

/-- A datacenter with nodes needs replicas iff any are asked for. -/
theorem Placement.need_pos_iff {q : Quotas} {d : Directory} {n : Node} (hn : n ∈ d.nodes) :
    0 < q.need d n.datacenter ↔ 0 < (q.factorFor n.datacenter).all := by
  have hpos : 0 < (d.endpointsIn n.datacenter).length :=
    List.length_pos_of_mem ((Directory.mem_endpointsIn_iff hn).2 rfl)
  rw [Quotas.need]
  omega

namespace Strategy

open Placement

variable (σ : Strategy) (s : Snapshot T) (t : T)

/-! ## The first replica -/

/-- **A strategy first serves** the first node on the walk for which it wants replicas. -/
theorem head?_chosen : (σ.chosen s t).head? =
    (s.nodesFrom t).find? fun n => decide (0 < (σ.factorIn n.datacenter).all) := by
  cases σ with
  | simple f =>
    change ((s.nodesFrom t).take f.all).head? = (s.nodesFrom t).find? fun _ => decide (0 < f.all)
    rw [List.head?_take]
    by_cases h : f.all = 0
    · rw [if_pos h, List.find?_eq_none.2 (by simp [h])]
    · rw [if_neg h]
      cases s.nodesFrom t <;> simp [Nat.pos_of_ne_zero h]
  | networkTopology q =>
    change (placedOrder q s t).head? = _
    rw [head?_placedOrder]
    refine List.find?_congr fun n hn => decide_eq_decide.2 ?_
    exact need_pos_iff (Snapshot.mem_nodesFrom.1 hn)

variable {σ s t} in
/-- Whoever is served first comes first in the queue of its datacenter. -/
theorem head?_served {n : Node} (h : (σ.chosen s t).head? = some n) :
    (σ.served s t n.datacenter).head? = some n := by
  cases σ with
  | simple f => exact h
  | networkTopology q =>
    change (placedOrder q s t).head? = some n at h
    change (placedIn q s t n.datacenter).head? = some n
    obtain ⟨rest, hrest⟩ := List.head?_eq_some_iff.1 h
    rw [← filter_placedOrder, hrest, List.filter_cons_of_pos (by simp), List.head?_cons]

/-- **The primary replica** is a full one, at the first node for which replicas are wanted. -/
theorem map_grade_primary? : (σ.place s t).primary?.map Replica.grade =
    ((s.nodesFrom t).find? fun n => decide (0 < (σ.factorIn n.datacenter).all)).map
      fun n => (n.endpoint, false) := by
  rw [← head?_chosen, ReplicaSet.primary?, ← List.head?_map, grade_place, List.head?_map]
  cases h : (σ.chosen s t).head? with
  | none => rfl
  | some n =>
    obtain ⟨rest, hserved⟩ := List.head?_eq_some_iff.1 (head?_served h)
    have hwanted : 0 < (σ.factorIn n.datacenter).all := by
      rw [head?_chosen] at h
      simpa using List.find?_some h
    have hfull := ReplicationFactor.full_pos hwanted
    rw [Option.map_some, Option.map_some, hserved, List.idxOf_cons_self]
    simp only [Option.some.injEq, Prod.mk.injEq, decide_eq_false_iff_not, true_and]
    omega

variable {σ s t} in
theorem isFull_primary? {r : Replica T} (h : (σ.place s t).primary? = some r) :
    r.isFull = true := by
  have hgrade := σ.map_grade_primary? s t
  rw [h, Option.map_some, eq_comm, Option.map_eq_some_iff] at hgrade
  obtain ⟨n, -, hn⟩ := hgrade
  have hkind : false = r.isTransient := congrArg Prod.snd hn
  rw [Replica.isFull, ← hkind]
  rfl

theorem endpoint_primary? : (σ.place s t).primary?.map Replica.endpoint =
    ((s.nodesFrom t).find? fun n => decide (0 < (σ.factorIn n.datacenter).all)).map
      Node.endpoint := by
  have hgrade := congrArg (Option.map Prod.fst) (σ.map_grade_primary? s t)
  rw [Option.map_map, Option.map_map] at hgrade
  exact hgrade

theorem isSome_primary?_iff : (σ.place s t).primary?.isSome = true ↔
    ∃ n ∈ s.directory.nodes, 0 < (σ.factorIn n.datacenter).all := by
  rw [← Option.isSome_map (f := Replica.endpoint), endpoint_primary?, Option.isSome_map,
    List.find?_isSome]
  simp only [Snapshot.mem_nodesFrom, decide_eq_true_eq]

variable {s t} in
/-- A placement begins with the node that the walk begins with, if replicas are wanted there. -/
theorem exists_primary?_of_head? {n : Node} (hn : (s.nodesFrom t).head? = some n)
    (hwanted : 0 < (σ.factorIn n.datacenter).all) :
    ∃ r, (σ.place s t).primary? = some r ∧ r.endpoint = n.endpoint := by
  obtain ⟨rest, hrest⟩ := List.head?_eq_some_iff.1 hn
  have hendpoint := σ.endpoint_primary? s t
  rw [hrest, List.find?_cons_of_pos (by simpa using hwanted)] at hendpoint
  exact Option.map_eq_some_iff.1 hendpoint

/-! ## What an owner holds -/

variable {s t} in
/-- **An owner is the full primary of its tokens**, if its replicas are wanted. -/
theorem exists_primary?_of_mem_tokensOf {n : Node} (hn : n ∈ s.directory.nodes)
    (hwanted : 0 < (σ.factorIn n.datacenter).all) (ht : t ∈ s.ring.tokensOf n.id) :
    ∃ r, (σ.place s t).primary? = some r ∧ r.endpoint = n.endpoint ∧ r.isFull = true := by
  obtain ⟨r, hr, he⟩ :=
    σ.exists_primary?_of_head? (s.head?_nodesFrom_of_mem_tokensOf hn ht) hwanted
  exact ⟨r, hr, he, isFull_primary? hr⟩

variable {σ s} in
/-- An owner holds a full replica of the arc that ends at its token. -/
theorem mem_right_full_replicasOf {n : Node} (hn : n ∈ s.directory.nodes)
    (hwanted : 0 < (σ.factorIn n.datacenter).all) {k : T} (hk : k ∈ s.ring.tokensOf n.id) :
    k ∈ (((σ.replicaMap s).replicasOf n.endpoint).filter Replica.isFull).map
      fun r => r.arc.right := by
  have hring : k ∈ s.ring.arcs.map Arc.right := by
    rw [TokenRing.map_right_arcs]
    exact List.mem_map_of_mem (TokenRing.mem_tokensOf.1 hk)
  obtain ⟨a, ha, rfl⟩ := List.mem_map.1 hring
  obtain ⟨r, hr, he, hfull⟩ := σ.exists_primary?_of_mem_tokensOf hn hwanted hk
  have hat : (σ.place s a.right).at? n.endpoint = some r :=
    ReplicaSet.at?_eq_some_iff.2 ⟨List.mem_of_head? hr, he⟩
  have hholds : r ∈ (σ.replicaMap s).replicasOf n.endpoint := by
    rw [replicasOf_replicaMap]
    exact List.mem_filterMap.2 ⟨a, ha, hat⟩
  refine List.mem_map.2 ⟨r, List.mem_filter.2 ⟨hholds, hfull⟩, ?_⟩
  rw [σ.arc_of_at?_place ha hat]

variable {s} in
theorem length_tokensOf_le {n : Node} (hn : n ∈ s.directory.nodes)
    (hwanted : 0 < (σ.factorIn n.datacenter).all) : (s.ring.tokensOf n.id).length ≤
      (((σ.replicaMap s).replicasOf n.endpoint).filter Replica.isFull).length := by
  have hnodup : (s.ring.tokensOf n.id).Nodup :=
    s.ring.ascending.nodup.sublist (List.filter_sublist.map _)
  have hsub := List.subperm_of_subset hnodup fun k hk => mem_right_full_replicasOf hn hwanted hk
  simpa using hsub.length_le

/-- **Owners lead the placements of their tokens.** The first replica of a placement is full. With
quotas it is at the first node on the walk whose datacenter has one, if there is any; in ring order
it is at the owner of the token that serves the one searched for. So a node whose replicas are
wanted is the primary of each of its tokens, and holds as many full replicas at least. -/
theorem owners_lead (σ : Strategy) (s : Snapshot T) :
    (∀ t, (σ.place s t).isEmpty = false →
      ∃ r, (σ.place s t).get? 0 = some r ∧ r.isFull = true) ∧
    (∀ q, σ = networkTopology q → ∀ t,
      ((σ.place s t).get? 0).map Replica.endpoint = ((s.nodesFrom t).find? fun n =>
        decide (0 < (q.factorFor n.datacenter).all)).map Node.endpoint ∧
      (((σ.place s t).get? 0).isSome = true ↔
        ∃ n ∈ s.directory.nodes, 0 < (q.factorFor n.datacenter).all)) ∧
    (∀ f, σ = simple f → 0 < f.all → ∀ t x, s.ring.firstToken? t = some x →
      ∃ n ∈ s.directory.nodes, s.ring.ownerOf? x = some n.id ∧
        ((σ.place s t).get? 0).map Replica.endpoint = some n.endpoint) ∧
    ∀ n ∈ s.directory.nodes, 0 < (σ.factorIn n.datacenter).all →
      (∀ k ∈ s.ring.tokensOf n.id, ∃ r, (σ.place s k).get? 0 = some r ∧
        r.endpoint = n.endpoint ∧ r.isFull = true) ∧
      (s.ring.tokensOf n.id).length ≤
        (((σ.replicaMap s).replicasOf n.endpoint).filter Replica.isFull).length := by
  have hget : ∀ t, (σ.place s t).get? 0 = (σ.place s t).primary? := fun _ =>
    List.head?_eq_getElem?.symm
  simp only [hget]
  refine ⟨fun t he => ?_, ?_, ?_, fun n hn hwanted => ⟨fun k => ?_, ?_⟩⟩
  · obtain ⟨r, rest, hr⟩ := List.exists_cons_of_ne_nil (List.isEmpty_eq_false_iff.1 he)
    have hprimary : (σ.place s t).primary? = some r := by
      rw [ReplicaSet.primary?, hr, List.head?_cons]
    exact ⟨r, hprimary, isFull_primary? hprimary⟩
  · rintro q rfl t
    exact ⟨endpoint_primary? _ s t, isSome_primary?_iff _ s t⟩
  · rintro f rfl hf t x hx
    obtain ⟨n, hn, howner⟩ := s.head?_nodesFrom hx
    obtain ⟨r, hr, he⟩ := (simple f).exists_primary?_of_head? hn hf
    exact ⟨n, Snapshot.mem_nodes_of_head? hn, howner, by rw [hr, Option.map_some, he]⟩
  · exact σ.exists_primary?_of_mem_tokensOf hn hwanted
  · exact σ.length_tokensOf_le hn hwanted

/-- From token 35 the walk meets all nodes in the west before the one in the east, where alone
replicas are wanted. Without quotas the first node leads the placements of both its tokens, and also
past the greatest of all. -/
theorem owners_lead_fourNodes :
    let s := Snapshot.fourNodes
    let n1 := Snapshot.numbered 1 "west" "a"
    let n4 := Snapshot.numbered 4 "east" "a"
    let eastern := networkTopology (.ofList [("east", ⟨1, 1, by decide⟩), ("west", .zero)])
    let plain := simple ⟨2, 1, by decide⟩
    ((eastern.place s ⟨35⟩).isEmpty = false ∧
        (∃ r, (eastern.place s ⟨35⟩).get? 0 = some r ∧ r.isFull = true) ∧
        ((eastern.place s ⟨35⟩).get? 0).map Replica.endpoint = some n4.endpoint) ∧
      (s.ring.firstToken? ⟨60⟩ = some ⟨10⟩ ∧
        ∃ n ∈ s.directory.nodes, s.ring.ownerOf? ⟨10⟩ = some n.id ∧
          ((plain.place s ⟨60⟩).get? 0).map Replica.endpoint = some n.endpoint) ∧
      n1 ∈ s.directory.nodes ∧ 0 < (plain.factorIn n1.datacenter).all ∧
        ⟨50⟩ ∈ s.ring.tokensOf n1.id ∧
        (∃ r, (plain.place s ⟨50⟩).get? 0 = some r ∧ r.endpoint = n1.endpoint ∧
          r.isFull = true) ∧
        2 ≤ (((plain.replicaMap s).replicasOf n1.endpoint).filter Replica.isFull).length := by
  intro s n1 n4 eastern plain
  have hplaced : (eastern.place s ⟨35⟩).isEmpty = false := by decide
  have hsearch : s.ring.firstToken? ⟨60⟩ = some ⟨10⟩ := by decide
  have hn1 : n1 ∈ s.directory.nodes := by decide
  have hwanted : 0 < (plain.factorIn n1.datacenter).all := by decide
  have htoken : ⟨50⟩ ∈ s.ring.tokensOf n1.id := by decide
  obtain ⟨hfull, hquotas, -, -⟩ := eastern.owners_lead s
  obtain ⟨-, -, horder, howner⟩ := plain.owners_lead s
  obtain ⟨hleads, hholds⟩ := howner n1 hn1 hwanted
  exact ⟨⟨hplaced, hfull _ hplaced, (hquotas _ rfl _).1.trans (by decide)⟩,
    ⟨hsearch, horder _ rfl (by decide) _ _ hsearch⟩, hn1, hwanted, htoken, hleads _ htoken, hholds⟩

end Strategy

end ReplicaRing
