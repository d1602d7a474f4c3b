import ReplicaRing.Proofs.ReplicaMap
import ReplicaRing.Strategy.Options

/-!
# Clusters whose topology does not matter

If all nodes stand in one datacenter, and all on one rack or each on a rack of its own, spreading
replicas over racks comes to nothing: either no node has to wait for another, or all wait for the
first. The nodes get replicas in the order of the walk, as they do without quotas.

* `Placement.preference_of_rack_eq`, `Placement.preference_of_nodup_racks`: on one rack, or on racks
  of their own, nodes are preferred in the order in which they are met.
* `Snapshot.Flat.rackAware_eq_inOrder`: so spreading over racks places as ring order does.
* `Strategy.strategies_coincide`: what this says of the two strategies.
-/

namespace ReplicaRing

namespace Placement

variable {ns : List Node}

/-! ## Preferences -/

/-- On racks of their own all nodes lead. -/
theorem preference_of_nodup_racks (h : (ns.map Node.rack).Nodup) : preference ns = ns := by
  have hleads : ∀ n ∈ ns, leads ns n = true := fun n hn =>
    decide_eq_true ((find?_key_eq_some_iff h).2 ⟨hn, rfl⟩)
  have hfollowers : followers ns = [] :=
    List.filter_eq_nil_iff.2 fun n hn => by simp [hleads n hn]
  rw [preference, hfollowers, List.append_nil, leaders, List.filter_eq_self.2 hleads]

/-- On one rack the first node leads and all others follow. -/
theorem preference_of_rack_eq (hn : ns.Nodup) (h : ∀ m ∈ ns, ∀ n ∈ ns, m.rack = n.rack) :
    preference ns = ns := by
  cases ns with
  | nil => rfl
  | cons first rest =>
    have hleads : ∀ n ∈ first :: rest, leads (first :: rest) n = decide (first = n) := by
      intro n hm
      rw [leads, List.find?_cons_of_pos (by simpa using h first (.head _) n hm)]
      simp
    have hne : ∀ n ∈ rest, first ≠ n := fun n hm e => (List.nodup_cons.1 hn).1 (e ▸ hm)
    have hleaders : leaders (first :: rest) = [first] := by
      rw [leaders, List.filter_congr hleads, List.filter_cons_of_pos (by simp),
        List.filter_eq_nil_iff.2 (by simpa using hne)]
    have hfollowers : followers (first :: rest) = rest := by
      rw [followers, List.filter_congr fun n hm => congrArg _ (hleads n hm),
        List.filter_cons_of_neg (by simp), List.filter_eq_self.2 (by simpa using hne)]
    rw [preference, hleaders, hfollowers]
    rfl

end Placement

variable {T : Type}

variable [Token T]

/-- All nodes stand in one datacenter, and on one rack or each on a rack of its own. -/
structure Snapshot.Flat (s : Snapshot T) (dc : String) : Prop where
  datacenter : ∀ n ∈ s.directory.nodes, n.datacenter = dc
  racks : (∀ m ∈ s.directory.nodes, ∀ n ∈ s.directory.nodes, m.rack = n.rack) ∨
    (s.directory.nodes.map Node.rack).Nodup

namespace Snapshot.Flat

open Placement

variable {s : Snapshot T} {dc : String} (h : s.Flat dc)
include h

theorem walkIn_eq_nodesFrom (t : T) : s.walkIn t dc = s.nodesFrom t := by
  refine List.filter_eq_self.2 fun n hn => ?_
  exact decide_eq_true (h.datacenter n (mem_nodesFrom.1 hn))

/-- **Nodes are preferred in the order of the walk.** -/
theorem preference_walkIn (t : T) : preference (s.walkIn t dc) = s.nodesFrom t := by
  rw [h.walkIn_eq_nodesFrom]
  rcases h.racks with hone | hown
  · refine preference_of_rack_eq (s.nodup_nodesFrom t) fun m hm n hn => ?_
    exact hone m (mem_nodesFrom.1 hm) n (mem_nodesFrom.1 hn)
  · exact preference_of_nodup_racks (((s.nodesFrom_perm t).map Node.rack).nodup_iff.2 hown)

/-! ## Placements -/

variable {q : Quotas} {t : T}

/-- The share of the datacenter is all there is. -/
theorem within_eq_replicas :
    (rackAware q s t).within s.directory dc = (rackAware q s t).replicas := by
  refine List.filter_eq_self.2 fun r hr => decide_eq_true ?_
  obtain ⟨dc', -, he⟩ := registered_rackAware q s t r hr
  obtain ⟨n, hn, hdc, -⟩ := Directory.mem_endpointsIn.1 he
  rwa [← h.datacenter n hn, hdc]

theorem placedIn_eq_take : placedIn q s t dc = (s.nodesFrom t).take (q.factorFor dc).all := by
  rw [placedIn, h.preference_walkIn]

/-- **Spreading over racks is placing in ring order.** -/
theorem rackAware_eq_inOrder : rackAware q s t = inOrder (q.factorFor dc) s t := by
  cases harc : s.ring.arcFor? t with
  | none => rw [rackAware, inOrder, harc]
  | some arc =>
    refine ReplicaSet.ext_replicas ?_
    rw [← h.within_eq_replicas, within_rackAware q harc, h.placedIn_eq_take, replicas_inOrder harc]

end Snapshot.Flat

namespace Strategy

open Placement

/-! ## Strategies -/

/-- Options that name one datacenter ask for replicas there alone. -/
theorem networkTopologyOfOptions_singleton {dc spec : String} {f : ReplicationFactor}
    (hdc : dc ≠ factorKey) (hspec : ReplicationFactor.parse spec = .ok f) :
    networkTopologyOfOptions [(dc, spec)] = .ok (networkTopology (.ofList [(dc, f)])) := by
  have hadd : addQuota ∅ (dc, spec) = .ok (.ofList [(dc, f)]) := by
    rw [addQuota, if_neg hdc, readFactor, hspec]
    rfl
  rw [networkTopologyOfOptions, List.foldlM_cons, hadd]
  rfl

/-- In ring order the first nodes of the walk get the replicas, as many as are asked for or are
there. -/
theorem endpoints_place_simple (f : ReplicationFactor) (s : Snapshot T) (t : T) :
    ((simple f).place s t).endpoints =
      ((s.nodesFrom t).take (min f.all s.directory.size)).map Node.endpoint := by
  have hsize : s.directory.size = (s.nodesFrom t).length := (s.nodesFrom_perm t).length_eq.symm
  rw [endpoints_place, hsize, ← List.take_eq_take_min]
  rfl

/-- **Where topology does not matter** the strategies coincide: a factor for the only datacenter
places what it places in ring order, for one token and for the whole ring. The replicas go to the
first nodes of the walk, as many as are asked for or are there. -/
theorem strategies_coincide {s : Snapshot T} {dc : String} (h : s.Flat dc)
    (f : ReplicationFactor) :
    let spread := networkTopology (.ofList [(dc, f)])
    (∀ spec, dc ≠ factorKey → ReplicationFactor.parse spec = .ok f →
      networkTopologyOfOptions [(dc, spec)] = .ok spread) ∧
    (∀ t, spread.place s t = (simple f).place s t) ∧
    spread.replicaMap s = (simple f).replicaMap s ∧
    ∀ t, ((simple f).place s t).endpoints =
        ((s.nodesFrom t).take (min f.all s.directory.size)).map Node.endpoint ∧
      ((simple f).place s t).size = min f.all s.directory.size := by
  intro spread
  have hfactor : Quotas.factorFor (.ofList [(dc, f)]) dc = f :=
    factorFor_of_get? (by rw [OrderedMap.get?_ofList]; simp)
  have hplace : ∀ t, spread.place s t = (simple f).place s t := fun t => by
    change rackAware _ s t = inOrder f s t
    rw [h.rackAware_eq_inOrder, hfactor]
  refine ⟨fun spec hdc hspec => networkTopologyOfOptions_singleton hdc hspec, hplace, ?_,
    fun t => ⟨endpoints_place_simple f s t, ?_⟩⟩
  · rw [replicaMap, replicaMap]
    simp only [hplace]
  · have hlen := congrArg List.length (endpoints_place_simple f s t)
    rw [ReplicaSet.endpoints, List.length_map, List.length_map, List.length_take,
      (s.nodesFrom_perm t).length_eq] at hlen
    rw [ReplicaSet.size, hlen, Directory.size]
    omega

end Strategy

/-- Three nodes in the west on these racks; the first owns two tokens. -/
def Snapshot.westernNodes (a b c : String) : Snapshot LongToken where
  epoch := Epoch.zero.next
  ring := ⟨[⟨⟨10⟩, 1⟩, ⟨⟨20⟩, 2⟩, ⟨⟨30⟩, 3⟩, ⟨⟨40⟩, 1⟩], by decide⟩
  directory := (Directory.ofList [numbered 1 "west" a, numbered 2 "west" b,
    numbered 3 "west" c]).toOption.get rfl
  registered := of_decide_eq_true rfl
  owning := of_decide_eq_true rfl

namespace Strategy

open Placement

/-- On one rack and on racks of their own alike, the nodes on the walk from token 15 hold two full
replicas and a transient one. -/
theorem strategies_coincide_westernNodes :
    let spread := networkTopology (.ofList [("west", ⟨2, 1, by decide⟩)])
    let plain := simple ⟨2, 1, by decide⟩
    "west" ≠ factorKey ∧ ReplicationFactor.parse " 2/1" = .ok ⟨2, 1, by decide⟩ ∧
      networkTopologyOfOptions [("west", " 2/1")] = .ok spread ∧
      ∀ s ∈ [Snapshot.westernNodes "a" "a" "a", Snapshot.westernNodes "a" "b" "c"],
        s.Flat "west" ∧ spread.place s ⟨15⟩ = plain.place s ⟨15⟩ ∧
          spread.replicaMap s = plain.replicaMap s ∧ (plain.place s ⟨15⟩).size = 3 := by
  intro spread plain
  have hname : "west" ≠ factorKey := by decide
  have hspec : ReplicationFactor.parse " 2/1" = .ok ⟨2, 1, by decide⟩ := by decide
  have hone : (Snapshot.westernNodes "a" "a" "a").Flat "west" := ⟨by decide, .inl (by decide)⟩
  have hown : (Snapshot.westernNodes "a" "b" "c").Flat "west" := ⟨by decide, .inr (by decide)⟩
  obtain ⟨hread, hplace, hmap, hcount⟩ := strategies_coincide hone ⟨2, 1, by decide⟩
  obtain ⟨-, hplace', hmap', hcount'⟩ := strategies_coincide hown ⟨2, 1, by decide⟩
  refine ⟨hname, hspec, hread _ hname hspec, ?_⟩
  simp only [List.forall_mem_cons]
  exact ⟨⟨hone, hplace _, hmap, (hcount _).2⟩, ⟨hown, hplace' _, hmap', (hcount' _).2⟩, by simp⟩

/-- Racks that some nodes share and others do not make a difference. -/
example :
    let s := Snapshot.westernNodes "a" "a" "b"
    (networkTopology (.ofList [("west", .ofFull 2)])).place s ⟨5⟩ ≠
      (simple (.ofFull 2)).place s ⟨5⟩ := by
  decide

end Strategy

end ReplicaRing
