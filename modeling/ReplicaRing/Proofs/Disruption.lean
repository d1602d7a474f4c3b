import ReplicaRing.Proofs.Queue
import ReplicaRing.Proofs.Removal

/-!
# Minimal disruption

When a node leaves a cluster, placements change as little as they can. If the node held no replica
of a token, nothing moves. If it did, one other endpoint at most takes a replica over, in the same
datacenter, and no full replica becomes transient.

* `Strategy.queue_without`: what a removal does to the queue of a datacenter.
* `Strategy.chosen_without`: the order over all datacenters is kept if the node was not served.
* `removal_disrupts_least`: the law for both strategies.
-/

namespace ReplicaRing

variable {T : Type} [Token T] {s s' : Snapshot T} {n : Node}

/-! ## Members -/

namespace Snapshot.Without

variable (h : s.Without s' n)
include h

theorem mem_nodes {m : Node} : m ∈ s'.directory.nodes ↔ m ∈ s.directory.nodes ∧ m ≠ n := by
  rw [h.nodes, List.mem_filter, decide_eq_true_eq]

theorem walkIn (t : T) (dc : String) :
    s'.walkIn t dc = (s.walkIn t dc).filter fun m => decide (m ≠ n) := by
  rw [Snapshot.walkIn, h.walk, List.filter_comm]
  rfl

theorem walkIn_of_ne (t : T) {dc : String} (hdc : dc ≠ n.datacenter) :
    s'.walkIn t dc = s.walkIn t dc := by
  rw [h.walkIn, filter_ne_of_not_mem]
  exact fun hm => hdc (mem_walkIn.1 hm).2.symm

end Snapshot.Without

/-! ## Queues -/

namespace Strategy

open Placement

variable (σ : Strategy) {t : T}

/-- The queue of a datacenter is left by `n`, or not touched. -/
theorem queue_without (h : s.Without s' n) (dc : String) :
    σ.queue s' t dc = σ.queue s t dc ∨
      n ∈ σ.queue s t dc ∧ Departure n (σ.queue s t dc) (σ.queue s' t dc) := by
  cases σ with
  | simple f =>
    change s'.nodesFrom t = s.nodesFrom t ∨
      n ∈ s.nodesFrom t ∧ Departure n (s.nodesFrom t) (s'.nodesFrom t)
    rw [h.walk]
    by_cases hn : n ∈ s.nodesFrom t
    · exact .inr ⟨hn, .filter (s.nodup_nodesFrom t) hn⟩
    · exact .inl (filter_ne_of_not_mem hn)
  | networkTopology q =>
    change preference (s'.walkIn t dc) = preference (s.walkIn t dc) ∨
      n ∈ preference (s.walkIn t dc) ∧
        Departure n (preference (s.walkIn t dc)) (preference (s'.walkIn t dc))
    rw [h.walkIn, (preference_perm _).mem_iff]
    have hd := s.nodup_walkIn t dc
    by_cases hn : n ∈ s.walkIn t dc
    · refine .inr ⟨hn, ?_⟩
      obtain ⟨a, b, hab⟩ := List.append_of_mem hn
      rw [hab] at hd ⊢
      rw [filter_ne_split hd]
      exact departure_preference hd
    · exact .inl (by rw [filter_ne_of_not_mem hn])

/-- A node stands in the queue of its own datacenter only. -/
theorem queue_of_mem {dc : String} {m : Node} (hm : m ∈ σ.queue s t dc) :
    σ.factorIn dc = σ.factorIn m.datacenter ∧
      ∀ s'' : Snapshot T, σ.queue s'' t dc = σ.queue s'' t m.datacenter := by
  cases σ with
  | simple f => exact ⟨rfl, fun _ => rfl⟩
  | networkTopology q =>
    have hdc := (Snapshot.mem_walkIn.1 ((preference_perm _).mem_iff.1 hm)).2
    rw [hdc]
    exact ⟨rfl, fun _ => rfl⟩

theorem served_without (h : s.Without s' n) {dc : String} (hn : n ∉ σ.served s t dc) :
    σ.served s' t dc = σ.served s t dc := by
  rcases σ.queue_without h dc with heq | ⟨-, hdep⟩
  · rw [served, heq, served]
  · exact hdep.take_eq hn

/-- Whoever is served remains so, no later in the queue than before. -/
theorem idxOf_served_without (h : s.Without s' n) {dc : String} {m : Node}
    (hm : m ∈ σ.served s t dc) (hne : m ≠ n) :
    m ∈ σ.served s' t dc ∧ (σ.served s' t dc).idxOf m ≤ (σ.served s t dc).idxOf m := by
  rcases σ.queue_without h dc with heq | ⟨-, hdep⟩
  · rw [served, heq, ← served]
    exact ⟨hm, Nat.le_refl _⟩
  · have hm' : m ∈ σ.served s' t dc := hdep.mem_take (σ.nodup_queue s t dc) hm hne
    refine ⟨hm', ?_⟩
    rw [served, served, (List.take_prefix _ _).idxOf_eq_of_mem hm',
      (List.take_prefix _ _).idxOf_eq_of_mem hm]
    exact hdep.idxOf_le hne

/-- One node at most is served anew. -/
theorem eq_of_new (h : s.Without s' n) {x y : Node} (hx : x ∈ σ.chosen s' t)
    (hx' : x ∉ σ.chosen s t) (hy : y ∈ σ.chosen s' t) (hy' : y ∉ σ.chosen s t) : x = y := by
  rw [mem_chosen] at hx hx' hy hy'
  have hqueue : ∀ {z : Node}, z ∈ σ.served s' t z.datacenter → z ∉ σ.served s t z.datacenter →
      n ∈ σ.queue s t z.datacenter ∧
        Departure n (σ.queue s t z.datacenter) (σ.queue s' t z.datacenter) := fun hz hz' => by
    refine (σ.queue_without h _).resolve_left fun heq => hz' ?_
    rw [served, ← heq]
    exact hz
  obtain ⟨hnx, hdep⟩ := hqueue hx hx'
  obtain ⟨hny, -⟩ := hqueue hy hy'
  obtain ⟨hfx, hqx⟩ := σ.queue_of_mem hnx
  obtain ⟨hfy, hqy⟩ := σ.queue_of_mem hny
  unfold served at hx hx' hy hy'
  rw [hqx, hfx] at hx hx'
  rw [hqy, hfy] at hy hy'
  rw [hqx, hqx] at hdep
  exact hdep.eq_of_new (σ.nodup_queue s t _) hx hx' hy hy'

end Strategy

/-! ## Order of placement -/

namespace Placement

variable {t : T} {q : Quotas} (h : s.Without s' n) (hn : n ∉ placedOrder q s t)
include h hn

/-- At any time of the walk the same nodes are placed as were without `n`. -/
theorem placed_without {ns : List Node} (hns : ns <+: s.nodesFrom t) (dc : String) :
    ((procedure q s'.directory (ns.filter fun m => decide (m ≠ n))).ledgers dc).placed =
      ((procedure q s.directory ns).ledgers dc).placed := by
  have hns' : ns.filter (fun m => decide (m ≠ n)) <+: s'.nodesFrom t := by
    rw [h.walk]
    exact hns.filter _
  have hk : n ∉ (preference (s.walkIn t dc)).take (q.factorFor dc).all := fun hm => by
    have hdc : n.datacenter = dc := (mem_placedIn hm).2
    rw [mem_placedOrder, hdc] at hn
    exact hn hm
  rw [placed_procedure q s' t hns', placed_procedure q s t hns, ← s'.racksOf_walkIn t,
    ← s.racksOf_walkIn t, h.walkIn, List.filter_comm]
  exact take_eligible_remove (s.nodup_walkIn t dc) hk (hns.filter _)

theorem order_without {ns : List Node} (hns : ns <+: s.nodesFrom t) :
    (procedure q s'.directory (ns.filter fun m => decide (m ≠ n))).order =
      (procedure q s.directory ns).order := by
  induction ns using List.reverseRecOn with
  | nil => rfl
  | append_singleton ns m ih =>
    have hpre : ns <+: s.nodesFrom t := (List.prefix_append ns [m]).trans hns
    have hafter := placed_without h hn hns m.datacenter
    have hbefore := placed_without h hn hpre m.datacenter
    rw [order_procedure_concat, ← hafter, ← hbefore, ← ih hpre, List.filter_append]
    by_cases hm : m = n
    · -- visiting `n` places nobody
      rw [List.filter_cons_of_neg (by simpa using hm), List.filter_nil, List.append_nil,
        List.drop_length, List.append_nil]
    · rw [List.filter_cons_of_pos (by simpa using hm), List.filter_nil, order_procedure_concat]

theorem placedOrder_without : placedOrder q s' t = placedOrder q s t := by
  rw [placedOrder, h.walk]
  exact order_without h hn List.prefix_rfl

end Placement

namespace Strategy

theorem chosen_without {σ : Strategy} {t : T} (h : s.Without s' n) (hn : n ∉ σ.chosen s t) :
    σ.chosen s' t = σ.chosen s t := by
  cases σ with
  | simple f =>
    change (s'.nodesFrom t).take f.all = (s.nodesFrom t).take f.all
    rw [h.walk]
    exact take_filter_ne hn
  | networkTopology q => exact Placement.placedOrder_without h hn

theorem mem_chosen_of_mem_served {σ : Strategy} {t : T} {dc : String}
    (hm : n ∈ σ.served s t dc) : n ∈ σ.chosen s t := by
  obtain ⟨hf, hq⟩ := σ.queue_of_mem (List.mem_of_mem_take hm)
  rw [mem_chosen, served, ← hf, ← hq s]
  exact hm

/-! ## Placements -/

/-- What may change in the placement of `t` when `n` leaves `s`, and `s'` is what remains. -/
structure DisruptsLeast (σ : Strategy) (s s' : Snapshot T) (n : Node) (t : T) : Prop where
  unserved : n.endpoint ∉ (σ.place s t).endpoints →
    (σ.place s' t).replicas.map Replica.grade = (σ.place s t).replicas.map Replica.grade
  kept : ∀ e ∈ (σ.place s t).endpoints, e ≠ n.endpoint → e ∈ (σ.place s' t).endpoints
  new_unique : ∀ e₁ ∈ (σ.place s' t).endpoints, ∀ e₂ ∈ (σ.place s' t).endpoints,
    e₁ ∉ (σ.place s t).endpoints → e₂ ∉ (σ.place s t).endpoints → e₁ = e₂
  new_in_datacenter : ∀ q, σ = networkTopology q → ∀ e ∈ (σ.place s' t).endpoints,
    e ∉ (σ.place s t).endpoints → e ∈ s'.directory.endpointsIn n.datacenter
  other_datacenters : ∀ q, σ = networkTopology q → ∀ dc, dc ≠ n.datacenter →
    ((σ.place s' t).within s'.directory dc).map Replica.grade =
      ((σ.place s t).within s.directory dc).map Replica.grade
  full : ∀ r ∈ (σ.place s t).replicas, ∀ r' ∈ (σ.place s' t).replicas, r'.endpoint = r.endpoint →
    r.isTransient = false → r'.isTransient = false

section
variable {σ : Strategy} {t : T} (h : s.Without s' n)
include h

theorem grade_place_without (hn : n ∉ σ.chosen s t) :
    (σ.place s' t).replicas.map Replica.grade = (σ.place s t).replicas.map Replica.grade := by
  rw [grade_place, grade_place, chosen_without h hn]
  refine List.map_congr_left fun m _ => ?_
  rw [σ.served_without h fun hm => hn (mem_chosen_of_mem_served hm)]

theorem mem_chosen_without {m : Node} (hm : m ∈ σ.chosen s t) (hne : m ≠ n) :
    m ∈ σ.chosen s' t :=
  mem_chosen.2 (σ.idxOf_served_without h (mem_chosen.1 hm) hne).1

theorem datacenter_of_new {q : Placement.Quotas} {m : Node}
    (hm : m ∈ (networkTopology q).chosen s' t) (hm' : m ∉ (networkTopology q).chosen s t) :
    m.datacenter = n.datacenter := by
  rw [mem_chosen] at hm hm'
  rcases (networkTopology q).queue_without h m.datacenter with heq | ⟨hn, -⟩
  · rw [served, heq] at hm
    exact absurd hm hm'
  · exact (Snapshot.mem_walkIn.1 ((Placement.preference_perm _).mem_iff.1 hn)).2.symm

theorem grade_within_of_ne {q : Placement.Quotas} {dc : String} (hdc : dc ≠ n.datacenter) :
    (((networkTopology q).place s' t).within s'.directory dc).map Replica.grade =
      (((networkTopology q).place s t).within s.directory dc).map Replica.grade := by
  unfold place
  rw [Placement.grade_within, Placement.grade_within, Placement.placedIn, h.walkIn_of_ne t hdc,
    Placement.placedIn]

/-- An endpoint that is placed anew is that of a node chosen anew. -/
theorem exists_new {e : Endpoint} (he : e ∈ (σ.place s' t).endpoints)
    (he' : e ∉ (σ.place s t).endpoints) :
    ∃ m, m.endpoint = e ∧ m ∈ σ.chosen s' t ∧ m ∉ σ.chosen s t := by
  obtain ⟨m, hm, rfl⟩ := mem_endpoints_place.1 he
  have hmem := (h.mem_nodes.1 (mem_nodes_of_mem_chosen hm)).1
  exact ⟨m, rfl, hm, fun hm' => he' ((endpoint_mem_place hmem).2 hm')⟩

theorem full_without {r r' : Replica T} (hr : r ∈ (σ.place s t).replicas)
    (hr' : r' ∈ (σ.place s' t).replicas) (he : r'.endpoint = r.endpoint)
    (hfull : r.isTransient = false) : r'.isTransient = false := by
  have hg : r.grade ∈ (σ.place s t).replicas.map Replica.grade := List.mem_map_of_mem hr
  have hg' : r'.grade ∈ (σ.place s' t).replicas.map Replica.grade := List.mem_map_of_mem hr'
  rw [grade_place] at hg hg'
  obtain ⟨m, hm, hgm⟩ := List.mem_map.1 hg
  obtain ⟨m', hm', hgm'⟩ := List.mem_map.1 hg'
  obtain ⟨hem, htm⟩ := Prod.mk.inj hgm
  obtain ⟨hem', htm'⟩ := Prod.mk.inj hgm'
  obtain ⟨hmem, hne⟩ := h.mem_nodes.1 (mem_nodes_of_mem_chosen hm')
  have hsame : m' = m := Directory.eq_of_endpoint_eq hmem (mem_nodes_of_mem_chosen hm)
    (hem'.trans (he.trans hem.symm))
  subst hsame
  have hidx := (σ.idxOf_served_without h (mem_chosen.1 hm) hne).2
  rw [hfull, decide_eq_false_iff_not] at htm
  rw [← htm', decide_eq_false_iff_not]
  omega

theorem disruptsLeast_of_without (hn : n ∈ s.directory.nodes) : σ.DisruptsLeast s s' n t := by
  constructor
  case unserved =>
    intro he
    rw [endpoint_mem_place hn] at he
    exact grade_place_without h he
  case kept =>
    intro e he hne
    obtain ⟨m, hm, rfl⟩ := mem_endpoints_place.1 he
    exact mem_endpoints_place.2 ⟨m, mem_chosen_without h hm fun e => hne (congrArg _ e), rfl⟩
  case new_unique =>
    intro e₁ h₁ e₂ h₂ h₁' h₂'
    obtain ⟨m₁, rfl, hm₁, hm₁'⟩ := exists_new h h₁ h₁'
    obtain ⟨m₂, rfl, hm₂, hm₂'⟩ := exists_new h h₂ h₂'
    rw [σ.eq_of_new h hm₁ hm₁' hm₂ hm₂']
  case new_in_datacenter =>
    rintro q rfl e he he'
    obtain ⟨m, rfl, hm, hm'⟩ := exists_new h he he'
    rw [← datacenter_of_new h hm hm']
    exact Directory.mem_endpointsIn.2 ⟨m, mem_nodes_of_mem_chosen hm, rfl, rfl⟩
  case other_datacenters =>
    rintro q rfl dc hdc
    exact grade_within_of_ne h hdc
  case full => exact fun r hr r' hr' => full_without h hr hr'

end

end Strategy

/-- **A node that leaves disrupts least**: it can always be removed, and every strategy then keeps
every placement but for the replica of that node. -/
theorem removal_disrupts_least (s : Snapshot T) {n : Node} (hn : n ∈ s.directory.nodes)
    (e : Epoch) : ∃ s', (s.toDraft.remove n.id).freeze e = .ok s' ∧
      ∀ (σ : Strategy) (t : T), σ.DisruptsLeast s s' n t := by
  obtain ⟨s', hs', h⟩ := s.exists_without hn e
  exact ⟨s', hs', fun _ _ => Strategy.disruptsLeast_of_without h hn⟩

/-- The first node of the sample cluster leaves. For two replicas in the west the second node comes
in for it and leads their rack; the replica in the east stays. -/
theorem removal_from_fourNodes :
    let s := Snapshot.fourNodes
    let n1 := Snapshot.numbered 1 "west" "a"
    let n2 := Snapshot.numbered 2 "west" "a"
    let n3 := Snapshot.numbered 3 "west" "b"
    let n4 := Snapshot.numbered 4 "east" "a"
    let west := Strategy.networkTopology (.ofList [("west", .ofFull 2)])
    let east := Strategy.networkTopology (.ofList [("east", .ofFull 1)])
    let t : LongToken := ⟨45⟩
    n1 ∈ s.directory.nodes ∧ (west.place s t).endpoints = [n1.endpoint, n3.endpoint] ∧
      ∃ s', (s.toDraft.remove n1.id).freeze .zero = .ok s' ∧
        n3.endpoint ∈ (west.place s' t).endpoints ∧ n2.endpoint ∈ (west.place s' t).endpoints ∧
        (∀ x ∈ (west.place s' t).endpoints, x ∉ (west.place s t).endpoints → x = n2.endpoint) ∧
        (∀ r ∈ (west.place s' t).replicas, r.endpoint = n3.endpoint → r.isTransient = false) ∧
        (east.place s' t).replicas.map Replica.grade = [(n4.endpoint, false)] := by
  intro s n1 n2 n3 n4 west east t
  have hn : n1 ∈ s.directory.nodes := .head _
  obtain ⟨s', hs', h⟩ := removal_disrupts_least s hn .zero
  have hrun : (match (s.toDraft.remove n1.id).freeze .zero with
      | .ok s' => (west.place s' t).endpoints
      | .error _ => []) = [n2.endpoint, n3.endpoint] := by decide
  rw [hs'] at hrun
  change (west.place s' t).endpoints = _ at hrun
  have hplaced : (west.place s t).endpoints = [n1.endpoint, n3.endpoint] := by decide
  have hn2 : n2.endpoint ∈ (west.place s' t).endpoints := hrun ▸ .head _
  have hn2' : n2.endpoint ∉ (west.place s t).endpoints := by decide
  obtain ⟨r, hr, he, hfull⟩ : ∃ r ∈ (west.place s t).replicas,
      r.endpoint = n3.endpoint ∧ r.isTransient = false := by decide
  refine ⟨hn, hplaced, s', hs', ?_, hn2, ?_, ?_, ?_⟩
  · exact (h west t).kept _ (hplaced ▸ .tail _ (.head _)) (by decide)
  · exact fun x hx hx' => (h west t).new_unique x hx _ hn2 hx' hn2'
  · exact fun r' hr' he' => (h west t).full r hr r' hr' (he'.trans he.symm) hfull
  · exact ((h east t).unserved (by decide)).trans (by decide)

end ReplicaRing
