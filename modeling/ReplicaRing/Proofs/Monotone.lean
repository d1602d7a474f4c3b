import ReplicaRing.Proofs.Shares

/-!
# Larger quotas

Raising quotas adds replicas and moves none. A larger quota can change when the walk ends, whether
all racks are met before it does, and whether nodes put aside are placed. But which nodes become
eligible at a visit does not depend on the quotas (`order_procedure_visit`): a quota only tells how
many of them are placed.

* `order_sublist`: at any time of the walk, what is placed under smaller quotas is part of what is
  placed under larger ones, in the same order.
* `placedIn_extends`: in one datacenter it is the first part.
* `larger_quotas_extend`: the law for placements.
-/

namespace ReplicaRing.Placement

variable {T : Type} [Token T] {q q' : Quotas}

section
variable {s : Snapshot T} {t : T} {ns : List Node} {n : Node}

/-! ## Order of placement -/

/-- **Visiting a node makes the same nodes eligible under all quotas**, and places as many of them
as the quota of the datacenter has left for. -/
theorem order_procedure_visit (h : ns ++ [n] <+: s.nodesFrom t) :
    ∃ old new : List Node, ∀ q : Quotas,
      (procedure q s.directory (ns ++ [n])).order =
        (procedure q s.directory ns).order ++
          new.take ((q.factorFor n.datacenter).all - old.length) := by
  have hns : ns <+: s.nodesFrom t := (List.prefix_append ns [n]).trans h
  have hnodup := nodup_concat_iff.1 (h.sublist.nodup (s.nodup_nodesFrom t))
  have hn : n ∉ ns.filter fun m => decide (m.datacenter = n.datacenter) := fun hm =>
    hnodup.2 (List.mem_of_mem_filter hm)
  have hr : n.rack ∈ s.directory.rackSet n.datacenter :=
    rack_mem_of_mem_nodesFrom s t (h.subset (by simp))
  obtain ⟨new, hnew⟩ := eligible_grows hn hr
  refine ⟨eligible (s.directory.rackSet n.datacenter)
    (ns.filter fun m => decide (m.datacenter = n.datacenter)), new, fun q => ?_⟩
  rw [order_procedure_concat, placed_procedure q s t h, placed_procedure q s t hns,
    List.filter_append, List.filter_cons_of_pos (by simp), List.filter_nil, ← hnew,
    List.take_append, List.drop_left]

/-- At any time of the walk, larger quotas have placed the same nodes and more between them. -/
theorem order_sublist (hq : ∀ dc, (q.factorFor dc).all ≤ (q'.factorFor dc).all)
    (h : ns <+: s.nodesFrom t) :
    (procedure q s.directory ns).order.Sublist (procedure q' s.directory ns).order := by
  induction ns using List.reverseRecOn with
  | nil => exact List.Sublist.refl _
  | append_singleton ns n ih =>
    obtain ⟨old, new, hvisit⟩ := order_procedure_visit h
    have hroom := hq n.datacenter
    rw [hvisit q, hvisit q']
    apply List.Sublist.append
    · exact ih ((List.prefix_append ns [n]).trans h)
    · exact (List.take_prefix_take_left (by omega)).sublist

end

section
variable (hq : ∀ dc, (q.factorFor dc).all ≤ (q'.factorFor dc).all) (s : Snapshot T) (t : T)
include hq

theorem placedOrder_sublist : (placedOrder q s t).Sublist (placedOrder q' s t) :=
  order_sublist hq List.prefix_rfl

/-! ## One datacenter -/

theorem placedIn_extends (dc : String) : placedIn q s t dc <+: placedIn q' s t dc :=
  List.take_prefix_take_left (hq dc)

/-- A replica among the first full ones of a datacenter stays there. -/
theorem full_of_full {dc : String} (hf : (q.factorFor dc).full ≤ (q'.factorFor dc).full)
    {r : Replica T} (hr : r ∈ (rackAware q s t).within s.directory dc)
    (hfull : r.isTransient = false) :
    ∃ r' ∈ (rackAware q' s t).within s.directory dc,
      r'.endpoint = r.endpoint ∧ r'.isTransient = false := by
  have hg : r.grade ∈ ((rackAware q s t).within s.directory dc).map Replica.grade :=
    List.mem_map_of_mem hr
  rw [grade_within, List.mem_mapIdx] at hg
  obtain ⟨i, hi, hg⟩ := hg
  obtain ⟨he, hkind⟩ := Prod.mk.inj hg
  rw [hfull, decide_eq_false_iff_not] at hkind
  -- the node keeps its place `i`, which is before the end of the full replicas
  have hp := placedIn_extends hq s t dc
  have hsame := hp.getElem hi
  have hg' : (r.endpoint, false) ∈
      ((rackAware q' s t).within s.directory dc).map Replica.grade := by
    rw [grade_within, List.mem_mapIdx]
    refine ⟨i, Nat.lt_of_lt_of_le hi hp.length_le, ?_⟩
    rw [← hsame, he, decide_eq_false (by omega)]
  obtain ⟨r', hr', hg'⟩ := List.mem_map.1 hg'
  exact ⟨r', hr', Prod.mk.inj hg'⟩

/-- **Larger quotas extend a placement.** If no quota is smaller, the endpoints placed before are
placed again in the same order, in each datacenter before all others; and where there are no fewer
full replicas, those that were full still are. -/
theorem larger_quotas_extend :
    (rackAware q s t).endpoints.Sublist (rackAware q' s t).endpoints ∧
      ∀ dc, ((rackAware q s t).within s.directory dc).map Replica.endpoint <+:
          ((rackAware q' s t).within s.directory dc).map Replica.endpoint ∧
        ((q.factorFor dc).full ≤ (q'.factorFor dc).full →
          ∀ r ∈ (rackAware q s t).within s.directory dc, r.isTransient = false →
            ∃ r' ∈ (rackAware q' s t).within s.directory dc,
              r'.endpoint = r.endpoint ∧ r'.isTransient = false) := by
  refine ⟨?_, fun dc => ⟨?_, fun hf r hr hfull => full_of_full hq s t hf hr hfull⟩⟩
  · rw [endpoints_rackAware, endpoints_rackAware]
    exact (placedOrder_sublist hq s t).map _
  · rw [endpoints_within, endpoints_within]
    exact (placedIn_extends hq s t dc).map _

end

/-- One more replica in the west and one in the east come behind and between the two in the west. -/
theorem larger_quotas_extend_fourNodes :
    let q : Quotas := .ofList [("west", .ofFull 2)]
    let s := Snapshot.fourNodes
    let n1 := Snapshot.numbered 1 "west" "a"
    let n2 := Snapshot.numbered 2 "west" "a"
    let n3 := Snapshot.numbered 3 "west" "b"
    let n4 := Snapshot.numbered 4 "east" "a"
    let t : LongToken := ⟨45⟩
    (∀ dc, (q.factorFor dc).all ≤ (fourNodesQuotas.factorFor dc).all) ∧
      (rackAware q s t).endpoints = [n1.endpoint, n3.endpoint] ∧
      (rackAware fourNodesQuotas s t).endpoints =
        [n1.endpoint, n4.endpoint, n3.endpoint, n2.endpoint] ∧
      (rackAware q s t).endpoints.Sublist (rackAware fourNodesQuotas s t).endpoints ∧
      ∃ r ∈ (rackAware q s t).within s.directory "west", r.isTransient = false ∧
        ∃ r' ∈ (rackAware fourNodesQuotas s t).within s.directory "west",
          r'.endpoint = r.endpoint ∧ r'.isTransient = false := by
  intro q s n1 n2 n3 n4 t
  have hq : ∀ dc, (q.factorFor dc).all ≤ (fourNodesQuotas.factorFor dc).all := by
    intro dc
    by_cases hk : dc ∈ q.keys
    · have hkeys : ∀ dc ∈ q.keys,
          (q.factorFor dc).all ≤ (fourNodesQuotas.factorFor dc).all := by decide
      exact hkeys dc hk
    · rw [factorFor_of_not_mem hk]
      exact Nat.zero_le _
  have hf : (q.factorFor "west").full ≤ (fourNodesQuotas.factorFor "west").full := by decide
  obtain ⟨hsub, hin⟩ := larger_quotas_extend hq s t
  obtain ⟨r, hr, hfull⟩ : ∃ r ∈ (rackAware q s t).within s.directory "west",
      r.isTransient = false := by decide
  exact ⟨hq, by decide, by decide, hsub, r, hr, hfull, (hin "west").2 hf r hr hfull⟩

end ReplicaRing.Placement
