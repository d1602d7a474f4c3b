import ReplicaRing.Proofs.Shares

/-!
# The primary replica of a placement spread over racks

Putting nodes aside and placing them later may change the order within a datacenter, but never who
comes first of all: the first node of a datacenter stands on a new rack.

* `head?_order_procedure`: the order of placement begins with the first node met whose datacenter
  needs replicas, however far the walk has come.
* `Placement.primary?_rackAware`: so does the placement.
-/

namespace ReplicaRing.Placement

theorem eligible_singleton (racks : Finset String) (n : Node) : eligible racks [n] = [n] := by
  have hl : leaders [n] = [n] := leaders_concat List.not_mem_nil
  have hf : followers [n] = [] := followers_concat List.not_mem_nil
  rw [eligible, hl, hf, ite_self, List.append_nil]

section
variable {q : Quotas} {d : Directory} {ns : List Node} {n : Node}

/-- A datacenter whose first node is met takes it, if it takes anything. -/
theorem head?_placed_first (hn : (ns ++ [n]).Nodup)
    (hr : ∀ m ∈ ns ++ [n], m.rack ∈ d.rackSet m.datacenter)
    (hfirst : (ns.filter fun m => decide (m.datacenter = n.datacenter)) = []) :
    ((procedure q d (ns ++ [n])).ledgers n.datacenter).placed.head? =
      if 0 < q.need d n.datacenter then some n else none := by
  rw [(follows_procedure hn hr n.datacenter).placed, List.filter_append, hfirst,
    List.filter_singleton, decide_eq_true rfl, List.nil_append]
  change ((eligible _ [n]).take _).head? = _
  rw [eligible_singleton]
  cases q.need d n.datacenter <;> rfl

/-- **The order of placement begins with the first node whose datacenter needs replicas.** -/
theorem head?_order_procedure (hn : ns.Nodup) (hr : ∀ m ∈ ns, m.rack ∈ d.rackSet m.datacenter) :
    (procedure q d ns).order.head? = ns.find? fun m => decide (0 < q.need d m.datacenter) := by
  induction ns using List.reverseRecOn with
  | nil => rfl
  | append_singleton ns n ih =>
    have hr' : ∀ m ∈ ns, m.rack ∈ d.rackSet m.datacenter := fun m hm =>
      hr m (List.mem_append_left _ hm)
    obtain ⟨hns, -⟩ := nodup_concat_iff.1 hn
    rw [order_procedure_concat, List.head?_append, List.find?_append, ih hns hr']
    cases hfind : ns.find? fun m => decide (0 < q.need d m.datacenter) with
    | some m => rfl
    | none =>
      -- nothing has been placed so far, in this datacenter or in any other
      have horder : (procedure q d ns).order = [] := by
        rw [← List.head?_eq_none_iff, ih hns hr', hfind]
      have hempty : ((procedure q d ns).ledgers n.datacenter).placed = [] := by
        rw [← filter_order_procedure hns hr', horder]
        rfl
      rw [hempty, List.length_nil, List.drop_zero, Option.none_or, Option.none_or,
        List.find?_singleton]
      by_cases hneed : 0 < q.need d n.datacenter
      · have hfirst : (ns.filter fun m => decide (m.datacenter = n.datacenter)) = [] := by
          refine List.filter_eq_nil_iff.2 fun m hm hdc => List.find?_eq_none.1 hfind m hm ?_
          rwa [of_decide_eq_true hdc, decide_eq_true_eq]
        rw [head?_placed_first hn hr hfirst, if_pos hneed, if_pos (decide_eq_true hneed)]
      · have hzero : q.need d n.datacenter = 0 := by omega
        rw [(follows_procedure hn hr n.datacenter).placed, hzero]
        rfl

end

section
variable {T : Type} [Token T] (q : Quotas) (s : Snapshot T) (t : T)

theorem head?_placedOrder : (placedOrder q s t).head? =
    (s.nodesFrom t).find? fun n => decide (0 < q.need s.directory n.datacenter) :=
  head?_order_procedure (s.nodup_nodesFrom t) fun _ => rack_mem_of_mem_nodesFrom s t

/-- **The primary replica** goes to the first node on the walk whose datacenter needs replicas. -/
theorem primary?_rackAware : ((rackAware q s t).primary?).map Replica.endpoint =
    ((s.nodesFrom t).find? fun n => decide (0 < q.need s.directory n.datacenter)).map
      Node.endpoint := by
  rw [← head?_placedOrder, ← List.head?_map, ← endpoints_rackAware, ReplicaSet.primary?,
    ← List.head?_map]
  rfl

end

end ReplicaRing.Placement
