import ReplicaRing.Proofs.Quota
import ReplicaRing.Proofs.Queue
import ReplicaRing.ReplicaMap

/-!
# Replica maps and placements

A replica map is computed once for each arc of a snapshot; coordination places the replicas of one
token at a time. Both give the same answers, for every strategy and every token.

* `Strategy.place_right`: a placement depends on the token only through its arc.
* `Strategy.replicaMap_agrees`: looking a token up in the map gives its placement.
* `ReplicaMap.replicasOf_eq_filter`, `Strategy.filter_replicasOf`: what an endpoint holds, in all
  and of a token.
* `Strategy.repair_agrees_with_coordination`: so repair, which asks what an endpoint holds, and
  coordination, which asks who holds a token, agree.
-/

namespace ReplicaRing

variable {T : Type} [Token T]

namespace Strategy

variable (σ : Strategy) {s : Snapshot T} {t : T}

/-! ## Placements by arc -/

/-- What a search finds decides the whole placement. -/
theorem place_of_firstIndex?_eq {t' : T} (h : s.ring.firstIndex? t = s.ring.firstIndex? t') :
    σ.place s t = σ.place s t' := by
  have harc : s.ring.arcFor? t = s.ring.arcFor? t' := by
    rw [TokenRing.arcFor?_eq, TokenRing.arcFor?_eq, h]
  have hnodes : s.nodesFrom t = s.nodesFrom t' := by
    simp only [Snapshot.nodesFrom, TokenRing.walk, h]
  cases σ with
  | simple f => simp only [place, Placement.inOrder, harc, hnodes]
  | networkTopology q => simp only [place, Placement.rackAware, harc, hnodes]

/-- The tokens of an arc have the placement of its end. -/
theorem place_right {a : Arc T} (h : s.ring.arcFor? t = some a) :
    σ.place s a.right = σ.place s t :=
  σ.place_of_firstIndex?_eq (TokenRing.firstIndex?_right h)

theorem place_of_arcFor?_eq_none (h : s.ring.arcFor? t = none) : σ.place s t = ∅ := by
  cases σ with
  | simple f => rw [place, Placement.inOrder, h]
  | networkTopology q => rw [place, Placement.rackAware, h]

/-- Every replica placed for a token is a claim to the arc of the token. -/
theorem arc_of_mem_place {r : Replica T} (h : r ∈ (σ.place s t).replicas) :
    s.ring.arcFor? t = some r.arc := by
  cases ha : s.ring.arcFor? t with
  | none =>
    rw [σ.place_of_arcFor?_eq_none ha] at h
    cases h
  | some arc =>
    cases σ with
    | simple f =>
      rw [place, Placement.replicas_inOrder ha, Placement.tagged, List.mem_mapIdx] at h
      obtain ⟨i, hi, rfl⟩ := h
      rfl
    | networkTopology q =>
      rw [place, Placement.replicas_rackAware q ha, List.mem_map] at h
      obtain ⟨n, hn, rfl⟩ := h
      rfl

/-! ## Looking a token up -/

theorem map_fst_replicaMap (s : Snapshot T) :
    (σ.replicaMap s).entries.map Prod.fst = s.ring.arcs := by
  simp [replicaMap, Function.comp_def]

theorem size_replicaMap (s : Snapshot T) : (σ.replicaMap s).size = s.ring.size := by
  rw [ReplicaMap.size, ← List.length_map Prod.fst, map_fst_replicaMap, TokenRing.length_arcs]

/-- A search among the ends of the arcs is a search among the tokens. -/
theorem length_takeWhile_replicaMap (s : Snapshot T) (t : T) :
    ((σ.replicaMap s).entries.takeWhile fun e => decide (e.1.right < t)).length =
      s.ring.countBelow t := by
  have hends : (σ.replicaMap s).entries.map (fun e => e.1.right) =
      s.ring.vnodes.map VirtualNode.token := by
    rw [← TokenRing.tokens, ← TokenRing.map_right_arcs, ← σ.map_fst_replicaMap s, List.map_map]
    rfl
  have hcut := congrArg (fun ends => (ends.takeWhile fun x => decide (x < t)).length) hends
  rw [List.takeWhile_map, List.takeWhile_map, List.length_map, List.length_map] at hcut
  exact hcut

theorem getElem?_replicaMap (s : Snapshot T) (i : Nat) : (σ.replicaMap s).entries[i]? =
    s.ring.arcs[i]?.map fun a => (a, σ.place s a.right) :=
  List.getElem?_map

/-- **Looking a token up in the map gives its placement**, if the ring has an arc for it. -/
theorem forToken?_replicaMap (s : Snapshot T) (t : T) :
    (σ.replicaMap s).forToken? t = (s.ring.arcFor? t).map fun _ => σ.place s t := by
  unfold ReplicaMap.forToken?
  rw [length_takeWhile_replicaMap, size_replicaMap]
  dsimp only
  rw [getElem?_replicaMap]
  cases h : s.ring.arcFor? t with
  | none =>
    rw [TokenRing.arcs_eq_nil_iff.2 (TokenRing.arcFor?_eq_none_iff.1 h)]
    rfl
  | some a =>
    have hi := h
    rw [TokenRing.arcFor?_eq, TokenRing.firstIndex?] at hi
    split at hi
    · cases hi
    · rw [Option.bind_some] at hi
      rw [hi, Option.map_some, Option.map_some, Option.map_some, σ.place_right h]

/-- **A replica map agrees with every placement.** Over an empty ring both are empty. Otherwise
looking up any token gives its placement, whose replicas all claim the arc that the token lies on;
and the map lists the arcs of the ring. -/
theorem replicaMap_agrees (s : Snapshot T) (t : T) :
    (s.ring.isEmpty = true → (σ.replicaMap s).isEmpty = true ∧
      (σ.replicaMap s).forToken? t = none ∧ (σ.place s t).isEmpty = true) ∧
    (s.ring.isEmpty = false → (σ.replicaMap s).forToken? t = some (σ.place s t) ∧
      ∃ arc, s.ring.arcFor? t = some arc ∧ t ∈ arc ∧
        ∀ r ∈ (σ.place s t).replicas, r.arc = arc) ∧
    (σ.replicaMap s).entries.map Prod.fst = s.ring.arcs := by
  refine ⟨fun he => ?_, fun he => ?_, σ.map_fst_replicaMap s⟩
  · have hn : s.ring.arcFor? t = none := TokenRing.arcFor?_eq_none_iff.2 he
    have hmap : (σ.replicaMap s).entries = [] := by
      rw [← List.map_eq_nil_iff (f := Prod.fst), map_fst_replicaMap]
      exact TokenRing.arcs_eq_nil_iff.2 he
    refine ⟨List.isEmpty_iff.2 hmap, ?_, ?_⟩
    · rw [forToken?_replicaMap, hn, Option.map_none]
    · rw [σ.place_of_arcFor?_eq_none hn]
      rfl
  · cases h : s.ring.arcFor? t with
    | none =>
      rw [TokenRing.arcFor?_eq_none_iff.1 h] at he
      cases he
    | some arc =>
      refine ⟨by rw [forToken?_replicaMap, h, Option.map_some], arc, rfl,
        (TokenRing.arcFor?_eq_some_iff.1 h).2, fun r hr => ?_⟩
      have hr := σ.arc_of_mem_place hr
      rw [h] at hr
      exact (Option.some.inj hr).symm

/-- The last token lies past all tokens of the sample cluster, on the arc that ends at the first of
them; without nodes it lies on none. -/
theorem replicaMap_agrees_fourNodes :
    let σ := networkTopology Placement.fourNodesQuotas
    let bare : Snapshot LongToken := .empty
    let four := Snapshot.fourNodes
    let t := LongToken.greatest
    bare.ring.isEmpty = true ∧ (σ.replicaMap bare).forToken? t = none ∧
      four.ring.isEmpty = false ∧ (σ.replicaMap four).forToken? t = some (σ.place four t) ∧
      t ∈ (⟨⟨50⟩, ⟨10⟩⟩ : Arc LongToken) ∧
      ∃ r ∈ (σ.place four t).replicas, r.arc = ⟨⟨50⟩, ⟨10⟩⟩ := by
  intro σ bare four t
  have hbare : bare.ring.isEmpty = true := rfl
  have hfour : four.ring.isEmpty = false := rfl
  obtain ⟨hempty, -, -⟩ := σ.replicaMap_agrees bare t
  obtain ⟨-, hfull, -⟩ := σ.replicaMap_agrees four t
  obtain ⟨hlookup, arc, harc, ht, hr⟩ := hfull hfour
  have hwraps : four.ring.arcFor? t = some ⟨⟨50⟩, ⟨10⟩⟩ := by decide
  rw [hwraps] at harc
  cases harc
  obtain ⟨r, hmem⟩ : ∃ r, r ∈ (σ.place four t).replicas := ⟨_, List.getElem_mem (by decide : 0 < _)⟩
  exact ⟨hbare, (hempty hbare).2.1, hfour, hlookup, ht, r, hmem, hr r hmem⟩

end Strategy

/-! ## What an endpoint holds -/

omit [Token T] in
/-- The replica at an endpoint is the only one there. -/
theorem ReplicaSet.filter_endpoint (rs : ReplicaSet T) (e : Endpoint) :
    (rs.replicas.filter fun r => decide (r.endpoint = e)) = (rs.at? e).toList := by
  have hl := rs.nodup
  rw [at?_eq_find?]
  generalize rs.replicas = l at hl ⊢
  induction l with
  | nil => rfl
  | cons r l ih =>
    rw [List.map_cons, List.nodup_cons] at hl
    rw [List.filter_cons, List.find?_cons]
    by_cases h : r.endpoint = e
    · have hrest : (l.filter fun r => decide (r.endpoint = e)) = [] := by
        refine List.filter_eq_nil_iff.2 fun r' hr' he => hl.1 ?_
        rw [h, ← of_decide_eq_true he]
        exact List.mem_map_of_mem hr'
      simp [h, hrest]
    · simpa [h] using ih hl.2

omit [Token T] in
/-- What an endpoint holds are its replicas among those of all arcs. -/
theorem ReplicaMap.replicasOf_eq_filter (m : ReplicaMap T) (e : Endpoint) : m.replicasOf e =
    (m.entries.flatMap fun entry => entry.2.replicas).filter fun r => decide (r.endpoint = e) := by
  rw [List.filter_flatMap, replicasOf, List.filterMap_eq_flatMap_toList]
  simp only [ReplicaSet.filter_endpoint]

namespace Strategy

variable (σ : Strategy) {s : Snapshot T} {t : T} {e : Endpoint}

theorem replicasOf_replicaMap (s : Snapshot T) (e : Endpoint) : (σ.replicaMap s).replicasOf e =
    s.ring.arcs.filterMap fun a => (σ.place s a.right).at? e := by
  rw [replicaMap, ReplicaMap.replicasOf, List.filterMap_map]
  rfl

theorem arc_of_at?_place {a : Arc T} {r : Replica T} (ha : a ∈ s.ring.arcs)
    (h : (σ.place s a.right).at? e = some r) : r.arc = a := by
  have hr := σ.arc_of_mem_place (ReplicaSet.at?_eq_some_iff.1 h).1
  rw [TokenRing.arcFor?_right ha] at hr
  exact (Option.some.inj hr).symm

/-- **Of what an endpoint holds, just its replica of the token's arc covers a token.** -/
theorem filter_replicasOf (s : Snapshot T) (e : Endpoint) (t : T) :
    (((σ.replicaMap s).replicasOf e).filter fun r => decide (t ∈ r.arc)) =
      ((σ.place s t).at? e).toList := by
  -- an arc contributes a claim to itself, so the arcs can be filtered instead
  have hfilter : ∀ a ∈ s.ring.arcs,
      ((σ.place s a.right).at? e).filter (fun r => decide (t ∈ r.arc)) =
        if decide (t ∈ a) then (σ.place s a.right).at? e else none := by
    intro a ha
    cases h : (σ.place s a.right).at? e with
    | none => simp
    | some r => rw [Option.filter_some, σ.arc_of_at?_place ha h]
  rw [replicasOf_replicaMap, List.filter_filterMap, List.filterMap_congr hfilter,
    ← List.filterMap_filter, TokenRing.filter_mem_arcs]
  cases h : s.ring.arcFor? t with
  | none =>
    rw [σ.place_of_arcFor?_eq_none h]
    rfl
  | some a =>
    rw [← σ.place_right h, Option.toList_some, List.filterMap_cons, List.filterMap_nil]
    cases (σ.place s a.right).at? e <;> rfl

/-- What an endpoint holds is listed by the ends of the arcs. -/
theorem ascending_replicasOf (s : Snapshot T) (e : Endpoint) :
    Ascending (fun r => r.arc.right) ((σ.replicaMap s).replicasOf e) := by
  rw [replicasOf_replicaMap, Ascending, List.pairwise_filterMap]
  refine List.Pairwise.imp_of_mem ?_ s.ring.ascending_arcs
  intro a b ha hb hab r hr r' hr'
  rw [σ.arc_of_at?_place ha hr, σ.arc_of_at?_place hb hr']
  exact hab

/-- Counted by endpoint or by arc, the replicas of a map are as many. -/
theorem sum_length_replicasOf (s : Snapshot T) :
    (s.directory.nodes.map fun n => ((σ.replicaMap s).replicasOf n.endpoint).length).sum =
      (s.ring.arcs.map fun a => (σ.place s a.right).size).sum := by
  have hknown : ∀ r ∈ (σ.replicaMap s).entries.flatMap fun entry => entry.2.replicas,
      r.endpoint ∈ s.directory.nodes.map Node.endpoint := by
    intro r hr
    obtain ⟨entry, hentry, hr⟩ := List.mem_flatMap.1 hr
    obtain ⟨a, ha, rfl⟩ := List.mem_map.1 hentry
    have he : r.endpoint ∈ (σ.place s a.right).endpoints := List.mem_map_of_mem hr
    obtain ⟨n, hn, he⟩ := mem_endpoints_place.1 he
    rw [← he]
    exact List.mem_map_of_mem (mem_nodes_of_mem_chosen hn)
  have hcount := Placement.length_eq_sum_filter s.directory.endpoints_nodup hknown
  have hsizes : (σ.replicaMap s).entries.map (fun entry => entry.2.replicas.length) =
      s.ring.arcs.map fun a => (σ.place s a.right).size := by
    rw [replicaMap, List.map_map]
    rfl
  simp only [← ReplicaMap.replicasOf_eq_filter, List.map_map, List.length_flatMap, hsizes] at hcount
  exact hcount.symm

/-! ## Repair and coordination -/

/-- What an endpoint holds agrees with the placement of a token: the endpoint is one of the
replicas iff it holds an arc with the token, it holds one such arc at most, and by the same kind
of replica. -/
structure HoldingsAgree (s : Snapshot T) (e : Endpoint) (t : T) : Prop where
  held_iff : e ∈ (σ.place s t).endpoints ↔ ∃ r ∈ (σ.replicaMap s).replicasOf e, t ∈ r.arc
  at_most_one : (((σ.replicaMap s).replicasOf e).filter fun r => decide (t ∈ r.arc)).length ≤ 1
  same_kind : ∀ r ∈ (σ.replicaMap s).replicasOf e, t ∈ r.arc →
    r.endpoint = e ∧ ((σ.place s t).at? e).map Replica.isTransient = some r.isTransient

theorem holdingsAgree (s : Snapshot T) (e : Endpoint) (t : T) : σ.HoldingsAgree s e t := by
  have hcover : ∀ r, r ∈ (σ.replicaMap s).replicasOf e ∧ t ∈ r.arc ↔
      (σ.place s t).at? e = some r := by
    intro r
    rw [← Option.mem_toList, ← filter_replicasOf, List.mem_filter, decide_eq_true_eq]
  constructor
  case held_iff =>
    simp only [hcover, ReplicaSet.at?_eq_some_iff]
    exact List.mem_map
  case at_most_one =>
    rw [filter_replicasOf]
    cases (σ.place s t).at? e <;> simp
  case same_kind =>
    intro r hr ht
    have hat := (hcover r).1 ⟨hr, ht⟩
    refine ⟨(ReplicaSet.at?_eq_some_iff.1 hat).2, ?_⟩
    rw [hat, Option.map_some]

/-- **Repair and coordination agree**: for every endpoint and every token, on who holds the token
and by which kind of replica. What an endpoint holds is in the order of the ring, and together the
registered endpoints hold just the replicas of all arcs. -/
theorem repair_agrees_with_coordination (s : Snapshot T) :
    (∀ e t, σ.HoldingsAgree s e t) ∧
    (∀ e, Ascending (fun r => r.arc.right) ((σ.replicaMap s).replicasOf e)) ∧
    (s.directory.nodes.map fun n => ((σ.replicaMap s).replicasOf n.endpoint).length).sum =
      (s.ring.arcs.map fun a => (σ.place s a.right).size).sum :=
  ⟨σ.holdingsAgree s, σ.ascending_replicasOf s, σ.sum_length_replicasOf s⟩

/-- Each of the five arcs of the sample cluster has four replicas. The second node holds one of the
arc that runs past the greatest tokens, so it is among the replicas of a token there. -/
theorem repair_agrees_fourNodes :
    let σ := networkTopology Placement.fourNodesQuotas
    let s := Snapshot.fourNodes
    let e := (Snapshot.numbered 2 "west" "a").endpoint
    let t : LongToken := ⟨60⟩
    (∃ r ∈ (σ.replicaMap s).replicasOf e, t ∈ r.arc ∧ r.endpoint = e ∧
        ((σ.place s t).at? e).map Replica.isTransient = some r.isTransient) ∧
      e ∈ (σ.place s t).endpoints ∧
      (s.directory.nodes.map fun n =>
        ((σ.replicaMap s).replicasOf n.endpoint).length).sum = 20 := by
  intro σ s e t
  obtain ⟨hagree, -, hsum⟩ := σ.repair_agrees_with_coordination s
  obtain ⟨r, hr, ht⟩ : ∃ r ∈ (σ.replicaMap s).replicasOf e, t ∈ r.arc := by decide
  obtain ⟨he, hkind⟩ := (hagree e t).same_kind r hr ht
  exact ⟨⟨r, hr, ht, he, hkind⟩, (hagree e t).held_iff.2 ⟨r, hr, ht⟩, hsum.trans (by decide)⟩

end Strategy

end ReplicaRing
