import ReplicaRing.Proofs.Departure
import ReplicaRing.Proofs.Freezing
import ReplicaRing.Proofs.Members

/-!
# A snapshot without one of its nodes

Dropping a registered node from the draft of a snapshot always leaves a draft that freezes
(`Snapshot.exists_without`). The new snapshot has the other nodes, and every walk yields them in
the order in which it yielded them before (`Snapshot.Without`).
-/

namespace ReplicaRing.Snapshot

variable {T : Type} [Token T]

/-- `s'` has the nodes of `s` but for `n`, and its walks yield them in the same order. -/
structure Without (s s' : Snapshot T) (n : Node) : Prop where
  nodes : s'.directory.nodes = s.directory.nodes.filter fun m => decide (m ≠ n)
  walk (t : T) : s'.nodesFrom t = (s.nodesFrom t).filter fun m => decide (m ≠ n)

theorem filter_id_ne {d : Directory} {n : Node} (hn : n ∈ d.nodes) {ns : List Node}
    (h : ns ⊆ d.nodes) :
    (ns.filter fun m => decide (m.id ≠ n.id)) = ns.filter fun m => decide (m ≠ n) := by
  refine List.filter_congr fun m hm => decide_eq_decide.2 (not_congr ⟨fun e => ?_, congrArg _⟩)
  exact d.ascending.eq_of_key_eq (h hm) hn e

/-- **Any registered node can be removed.** -/
theorem exists_without (s : Snapshot T) {n : Node} (hn : n ∈ s.directory.nodes) (e : Epoch) :
    ∃ s', (s.toDraft.remove n.id).freeze e = .ok s' ∧ s.Without s' n := by
  obtain ⟨s', hs', -, hvnodes, hnodes⟩ :=
    Draft.freeze_of_consistent (s.consistent_toDraft.remove n.id) e
  refine ⟨s', hs', ?_⟩
  have hring : s'.ring.vnodes = s.ring.vnodes.filter fun v => decide (v.node ≠ n.id) := by
    rw [hvnodes]
    exact sortOn_of_ascending (s.ring.ascending.sublist List.filter_sublist)
  have hdir : s'.directory.nodes = s.directory.nodes.filter fun m => decide (m.id ≠ n.id) := by
    rw [hnodes]
    exact sortOn_of_ascending (s.directory.ascending.sublist List.filter_sublist)
  have hnode : ∀ id, (if decide (id ≠ n.id) then s'.directory.node? id else none) =
      (s.directory.node? id).filter fun m => decide (m.id ≠ n.id) := fun id => by
    ext m
    by_cases h : id = n.id
    · rw [if_neg (by simpa using h), Option.filter_eq_some_iff, Registry.node?_eq_some_iff]
      constructor
      · intro hm
        cases hm
      · rintro ⟨⟨-, hm⟩, hne⟩
        exact absurd (hm.trans h) (of_decide_eq_true hne)
    · rw [if_pos (by simpa using h), Option.filter_eq_some_iff, Registry.node?_eq_some_iff,
        Registry.node?_eq_some_iff, hdir, List.mem_filter, and_right_comm]
  refine ⟨by rw [hdir, filter_id_ne hn (List.Subset.refl _)], fun t => ?_⟩
  have hwalk : (s'.ring.walk t).toList =
      (s.ring.walk t).toList.filter fun id => decide (id ≠ n.id) :=
    TokenRing.toList_walk_filter hring t
  rw [← filter_id_ne hn fun m hm => mem_nodesFrom.1 hm, nodesFrom, nodesFrom, hwalk,
    List.filterMap_filter, List.filter_filterMap]
  exact congrArg (List.filterMap · _) (funext hnode)

end ReplicaRing.Snapshot
