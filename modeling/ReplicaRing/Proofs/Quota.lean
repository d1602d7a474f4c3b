import Mathlib.Algebra.Ring.Nat
import ReplicaRing.Proofs.Shares

/-!
# Quotas are met exactly

A placement spread over racks gives to each configured datacenter what its quota asks for, or all
nodes of the datacenter if they are fewer, on as many racks as so many nodes can stand on.

* `ReplicationFactor.map_sum`: numbers of a sum of factors are sums of numbers.
* `FillsQuota`: what the share of one datacenter has to satisfy.
* `quotas_filled`: every share does, and the shares are all that is placed.
-/

namespace ReplicaRing

/-! ## Sums of factors -/

namespace ReplicationFactor

/-- Numbers that add up with factors add up along a list. -/
theorem map_sum {m : ReplicationFactor → Nat} (hzero : m zero = 0)
    (hadd : ∀ f g, m (f.add g) = m f + m g) (fs : List ReplicationFactor) :
    m (sum fs) = (fs.map m).sum := by
  suffices h : ∀ f, m (fs.foldl add f) = m f + (fs.map m).sum by
    rw [sum, h, hzero, Nat.zero_add]
  induction fs with
  | nil => exact fun f => rfl
  | cons g fs ih =>
    intro f
    rw [List.foldl_cons, ih, hadd, List.map_cons, List.sum_cons, Nat.add_assoc]

theorem full_sum (fs : List ReplicationFactor) : (sum fs).full = (fs.map full).sum :=
  map_sum rfl (fun _ _ => rfl) fs

theorem transient_sum (fs : List ReplicationFactor) :
    (sum fs).transient = (fs.map transient).sum :=
  map_sum rfl (fun _ _ => rfl) fs

theorem all_sum (fs : List ReplicationFactor) : (sum fs).all = (fs.map all).sum :=
  map_sum rfl (fun f g => by simp only [all, add]; omega) fs

end ReplicationFactor

/-! ## Racks of a choice of endpoints -/

theorem Directory.nodes_of_endpointsIn {d : Directory} {dc : String} {es : List Endpoint}
    (h : es ⊆ d.endpointsIn dc) :
    ∃ ns ⊆ d.nodes, ns.map Node.endpoint = es ∧ racksOf ns ⊆ d.rackSet dc := by
  induction es with
  | nil => exact ⟨[], List.nil_subset _, rfl, Finset.empty_subset _⟩
  | cons e es ih =>
    obtain ⟨he, hes⟩ := List.cons_subset.1 h
    obtain ⟨n, hn, hdc, rfl⟩ := mem_endpointsIn.1 he
    obtain ⟨ns, hns, rfl, hr⟩ := ih hes
    refine ⟨n :: ns, List.cons_subset.2 ⟨hn, hns⟩, rfl, fun rack hrack => ?_⟩
    obtain ⟨m, hm, rfl⟩ := mem_racksOf.1 hrack
    cases hm with
    | head => exact mem_rackSet.2 ⟨n, hn, hdc, rfl⟩
    | tail _ hm => exact hr (mem_racksOf.2 ⟨m, hm, rfl⟩)

/-- However endpoints of a datacenter are chosen, they stand on no more racks than this. -/
theorem Directory.card_racksAt_le {d : Directory} {dc : String} {es : List Endpoint}
    (h : es ⊆ d.endpointsIn dc) : (d.racksAt es).card ≤ min es.length (d.rackCount dc) := by
  obtain ⟨ns, hns, rfl, hr⟩ := nodes_of_endpointsIn h
  rw [racksAt_map_endpoint hns, rackCount_eq, List.length_map]
  exact le_min (card_racksOf_le ns) (Finset.card_le_card hr)

namespace Placement

variable {T : Type}

/-- The share of a datacenter fills its quota, full replicas before transient ones, and is spread
over its racks as widely as can be. -/
structure FillsQuota (rf : ReplicationFactor) (d : Directory) (dc : String)
    (share : List (Replica T)) : Prop where
  size : share.length = min (rf.full + rf.transient) (d.endpointsIn dc).length
  full : (share.filter fun r => !r.isTransient).length = min rf.full share.length
  transient : (share.filter Replica.isTransient).length = share.length - min rf.full share.length
  racks : (d.racksAt (share.map Replica.endpoint)).card = min share.length (d.rackCount dc)
  widest : ∀ es ⊆ d.endpointsIn dc, es.length = share.length →
    (d.racksAt es).card ≤ (d.racksAt (share.map Replica.endpoint)).card

/-- A list falls apart into the elements with each key. -/
theorem length_eq_sum_filter {α K : Type} [DecidableEq K] {key : α → K} {keys : List K}
    (hk : keys.Nodup) {xs : List α} (h : ∀ x ∈ xs, key x ∈ keys) :
    xs.length = (keys.map fun k => (xs.filter fun x => decide (key x = k)).length).sum := by
  induction keys generalizing xs with
  | nil =>
    cases xs with
    | nil => rfl
    | cons x xs => cases h x (.head _)
  | cons k keys ih =>
    obtain ⟨hn, hk⟩ := List.nodup_cons.1 hk
    have hother : ∀ x ∈ xs.filter fun x => !decide (key x = k), key x ∈ keys := fun x hx => by
      obtain ⟨hx, hne⟩ := List.mem_filter.1 hx
      exact (List.mem_cons.1 (h x hx)).resolve_left (by simpa using hne)
    rw [List.length_eq_length_filter_add fun x => decide (key x = k), ih hk hother,
      List.map_cons, List.sum_cons]
    refine congrArg (_ + List.sum ·) (List.map_congr_left fun k' hk' => ?_)
    have hne : k' ≠ k := fun e => hn (e ▸ hk')
    rw [List.filter_filter]
    refine congrArg List.length (List.filter_congr fun x _ => ?_)
    by_cases hx : key x = k' <;> simp [hx, hne]

section
variable [Token T] (q : Quotas) (s : Snapshot T) (t : T)

theorem length_within (dc : String) : ((rackAware q s t).within s.directory dc).length =
    q.need s.directory dc := by
  rw [← List.length_map Replica.endpoint, endpoints_within, List.length_map, length_placedIn]

theorem length_full_within (dc : String) :
    (((rackAware q s t).within s.directory dc).filter fun r => !r.isTransient).length =
      min (q.factorFor dc).full ((rackAware q s t).within s.directory dc).length := by
  cases h : s.ring.arcFor? t with
  | none =>
    rw [rackAware, h]
    exact (Nat.min_zero _).symm
  | some arc =>
    rw [within_rackAware q h, length_full_tagged, ← List.length_map Replica.endpoint,
      endpoint_tagged, Nat.sub_zero]

theorem card_racksAt_within (dc : String) :
    (s.directory.racksAt (((rackAware q s t).within s.directory dc).map Replica.endpoint)).card =
      min ((rackAware q s t).within s.directory dc).length (s.directory.rackCount dc) := by
  have hsub : placedIn q s t dc ⊆ s.directory.nodes := fun n hn => (mem_placedIn hn).1
  have hle : s.directory.rackCount dc ≤ (s.directory.endpointsIn dc).length := by
    rw [Directory.rackCount_eq, ← s.racksOf_walkIn t, ← s.length_walkIn t]
    exact card_racksOf_le _
  rw [endpoints_within, Directory.racksAt_map_endpoint hsub, placedIn,
    card_racksOf_take_preference (s.nodup_walkIn t dc), s.racksOf_walkIn,
    ← Directory.rackCount_eq, length_within, Quotas.need]
  omega

theorem fillsQuota_rackAware {dc : String} {rf : ReplicationFactor} (h : q.get? dc = some rf) :
    FillsQuota rf s.directory dc ((rackAware q s t).within s.directory dc) := by
  have hf := factorFor_of_get? h
  have hfull := length_full_within q s t dc
  have hracks := card_racksAt_within q s t dc
  rw [hf] at hfull
  constructor
  case size =>
    rw [length_within, Quotas.need, hf]
    rfl
  case full => exact hfull
  case transient =>
    have hsplit := List.length_eq_length_filter_add
      (l := (rackAware q s t).within s.directory dc) Replica.isTransient
    omega
  case racks => exact hracks
  case widest =>
    intro es hes hlen
    rw [hracks, ← hlen]
    exact Directory.card_racksAt_le hes

theorem size_rackAware : (rackAware q s t).size =
    (q.toList.map fun e => min e.2.all (s.directory.endpointsIn e.1).length).sum := by
  have hsize : (rackAware q s t).size = (placedOrder q s t).length := by
    rw [ReplicaSet.size, ← List.length_map Replica.endpoint, ← ReplicaSet.endpoints,
      endpoints_rackAware, List.length_map]
  have hk : q.keys.Nodup := q.ascending.nodup
  rw [hsize, length_eq_sum_filter hk fun n hn => datacenter_mem_keys hn,
    OrderedMap.keys, List.map_map]
  refine congrArg List.sum (List.map_congr_left fun e he => ?_)
  have hg : q.get? e.1 = some e.2 := OrderedMap.mem_toList_iff.1 he
  rw [Function.comp_apply, filter_placedOrder, length_placedIn, Quotas.need, factorFor_of_get? hg]

/-- **Every quota is filled exactly**: no endpoint is placed twice, each configured datacenter
gets its share on as many racks as possible, and nothing is placed beyond these shares. -/
theorem quotas_filled :
    (rackAware q s t).endpoints.Nodup ∧
      (∀ dc rf, q.get? dc = some rf →
        FillsQuota rf s.directory dc ((rackAware q s t).within s.directory dc)) ∧
      (∀ r ∈ (rackAware q s t).replicas,
        ∃ dc ∈ q.keys, r.endpoint ∈ s.directory.endpointsIn dc) ∧
      (rackAware q s t).size = (q.toList.map fun e =>
        min (e.2.full + e.2.transient) (s.directory.endpointsIn e.1).length).sum :=
  ⟨(rackAware q s t).nodup, fun _ _ => fillsQuota_rackAware q s t, registered_rackAware q s t,
    size_rackAware q s t⟩

end

/-- The west of the sample cluster fills its quota; no three of its nodes stand on more racks. -/
theorem quotas_filled_fourNodes :
    let placed := rackAware fourNodesQuotas .fourNodes (⟨45⟩ : LongToken)
    let west := Snapshot.fourNodes.directory.endpointsIn "west"
    let share := placed.within Snapshot.fourNodes.directory "west"
    fourNodesQuotas.get? "west" = some ⟨2, 1, by decide⟩ ∧
      FillsQuota ⟨2, 1, by decide⟩ Snapshot.fourNodes.directory "west" share ∧
      (west ⊆ west ∧ west.length = share.length ∧
        (Snapshot.fourNodes.directory.racksAt west).card ≤
          (Snapshot.fourNodes.directory.racksAt (share.map Replica.endpoint)).card) ∧
      (∃ r ∈ placed.replicas, ∃ dc ∈ fourNodesQuotas.keys,
        r.endpoint ∈ Snapshot.fourNodes.directory.endpointsIn dc) ∧
      placed.size = 4 := by
  obtain ⟨-, h2, h3, h4⟩ := quotas_filled fourNodesQuotas .fourNodes (⟨45⟩ : LongToken)
  have hq : fourNodesQuotas.get? "west" = some ⟨2, 1, by decide⟩ := by decide
  have hw := h2 _ _ hq
  have hlen := hw.size.symm
  obtain ⟨r, hr⟩ : ∃ r, r ∈ (rackAware fourNodesQuotas .fourNodes (⟨45⟩ : LongToken)).replicas :=
    ⟨_, List.getElem_mem (by decide : 0 < _)⟩
  exact ⟨hq, hw, ⟨List.Subset.refl _, hlen, hw.widest _ (List.Subset.refl _) hlen⟩,
    ⟨r, hr, h3 r hr⟩, h4.trans (by decide)⟩

end Placement

end ReplicaRing
