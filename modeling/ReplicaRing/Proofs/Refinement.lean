import ReplicaRing.Proofs.Procedure

/-!
# The walk by quotas follows the procedure

`rackAware` keeps counters where the procedure keeps lists and sets, marks replicas as transient
when it places them, and ends its walk as soon as no quota is open. It places what the procedure
places:

* `Progress.visitAll_eq_foldl`: the count of open quotas is right at all times, and without an open
  quota a visit changes nothing, so ending early makes no difference.
* `Agrees`: the counters of one datacenter agree with its ledger; kept by each offer
  (`Agrees.offer`).
* `Tracks`: all datacenters agree and the replicas are those of the run; kept by each visit
  (`Tracks.visit`), hence by the walk (`tracks_foldl`).
-/

namespace ReplicaRing

/-- A value that replaces another takes its place among the values. -/
theorem OrderedMap.values_insert {K V : Type} [LE K] [LT K] [DecidableLT K] [Std.IsLinearOrder K]
    [Std.LawfulOrderLT K] [DecidableEq K] {m : OrderedMap K V} {k : K} {v : V}
    (h : m.get? k = some v) (w : V) :
    ∃ a b, m.values = a ++ v :: b ∧ (m.insert k w).values = a ++ w :: b := by
  obtain ⟨l, hl⟩ := m
  simp only [get?, values, insert, alter] at h ⊢
  induction l with
  | nil => cases h
  | cons e rest ih =>
    obtain ⟨he, hr⟩ := List.pairwise_cons.1 hl
    rw [lookup_cons_ite] at h
    rw [alterEntries]
    split
    · rename_i hlt
      have hn : rest.lookup k = none := lookup_eq_none_of_lt fun e' he' => by
        have := he e' he'
        grind
      rw [if_neg (by grind), hn] at h
      cases h
    · split
      · rename_i hlt
        rw [if_neg (by grind)] at h
        obtain ⟨a, b, h1, h2⟩ := ih hr h
        exact ⟨e.2 :: a, b, congrArg _ h1, congrArg _ h2⟩
      · rw [if_pos (by grind)] at h
        cases h
        exact ⟨[], rest.map Prod.snd, rfl, rfl⟩

namespace Placement

variable {T : Type} {arc : Arc T}

/-! ## The early end -/

namespace Progress

variable {s : Progress T}

/-- The number of datacenters whose quota is open. -/
def unmet (s : Progress T) : Nat := (s.datacenters.values.filter fun p => !p.isDone).length

theorem pending_visit (h : s.pending = s.unmet) (n : Node) :
    (s.visit arc n).pending = (s.visit arc n).unmet := by
  unfold visit
  split
  · exact h
  · rename_i p hp
    split
    · exact h
    · rename_i hopen
      obtain ⟨a, b, hv, hw⟩ :=
        OrderedMap.values_insert hp (p.offer arc n.endpoint n.rack s.replicas).1
      simp only [unmet, hv, hw, List.filter_append, List.filter_cons, List.length_append] at h ⊢
      rw [if_pos (by simpa using hopen), List.length_cons] at h
      cases hd : (p.offer arc n.endpoint n.rack s.replicas).1.isDone
      · simp only [Bool.not_false, Bool.false_eq_true, if_true, if_false, List.length_cons]
        exact h
      · simp only [Bool.not_true, Bool.false_eq_true, if_true, if_false]
        omega

theorem visit_of_unmet_eq_zero (h : s.unmet = 0) (n : Node) : s.visit arc n = s := by
  unfold visit
  split
  · rfl
  · rename_i p hp
    obtain ⟨a, b, hv, -⟩ := OrderedMap.values_insert hp p
    have hd : p.isDone = true := by
      have := List.filter_eq_nil_iff.1 (List.eq_nil_of_length_eq_zero h) p (by simp [hv])
      simpa using this
    exact if_pos hd

theorem visitAll_eq_foldl (h : s.pending = s.unmet) (ns : List Node) :
    s.visitAll arc ns = ns.foldl (visit arc) s := by
  induction ns generalizing s with
  | nil => rfl
  | cons n ns ih =>
    rw [visitAll, List.foldl_cons]
    split
    · rename_i h0
      have hs : ∀ m, s.visit arc m = s := visit_of_unmet_eq_zero (h ▸ h0)
      have hfix : ∀ ms : List Node, ms.foldl (visit arc) s = s := by
        intro ms
        induction ms with
        | nil => rfl
        | cons m ms ihm => rw [List.foldl_cons, hs m, ihm]
      rw [hs n, hfix]
    · exact ih (pending_visit h n)

end Progress

/-! ## Placing -/

/-- The replicas of endpoints placed in turn when `start` replicas have been placed before. -/
def tagged (full : Nat) (arc : Arc T) (start : Nat) (es : List Endpoint) : List (Replica T) :=
  es.mapIdx fun i e => ⟨e, arc, decide (full ≤ start + i)⟩

theorem tagged_cons (full : Nat) (arc : Arc T) (start : Nat) (e : Endpoint) (es : List Endpoint) :
    tagged full arc start (e :: es) =
      ⟨e, arc, decide (full ≤ start)⟩ :: tagged full arc (start + 1) es := by
  rw [tagged, tagged, List.mapIdx_cons]
  congr 2
  funext i e
  rw [Nat.add_assoc, Nat.add_comm 1 i]

/-- Marking nodes by their position in the end, `new` having been placed after `old`. -/
theorem map_idxOf_eq_tagged (full : Nat) (arc : Arc T) {old new : List Node}
    (h : (old ++ new).Nodup) :
    (new.map fun n => (⟨n.endpoint, arc, decide (full ≤ (old ++ new).idxOf n)⟩ : Replica T)) =
      tagged full arc old.length (new.map Node.endpoint) := by
  induction new generalizing old with
  | nil => rfl
  | cons n new ih =>
    have hn : n ∉ old := fun hm => (List.nodup_append.1 h).2.2 n hm n (.head _) rfl
    have hi : (old ++ n :: new).idxOf n = old.length := by
      rw [List.idxOf_append_of_notMem hn, List.idxOf_cons_self, Nat.add_zero]
    rw [List.append_cons] at h
    have ih := ih h
    rw [← List.append_cons, List.length_append, List.length_singleton] at ih
    rw [List.map_cons, ih, hi, List.map_cons, tagged_cons]

namespace DatacenterProgress

variable {rs : ReplicaSet T} {e : Endpoint}

theorem place_of_not_mem (arc : Arc T) (p : DatacenterProgress) (h : e ∉ rs.endpoints) :
    (place arc e p rs).1 = { p with placed := p.placed + 1 } ∧
      (place arc e p rs).2.replicas =
        rs.replicas ++ [⟨e, arc, decide (p.factor.full ≤ p.placed)⟩] := by
  obtain ⟨h1, h2⟩ := ReplicaSet.replicas_push (s := rs)
    (r := ⟨e, arc, decide (p.factor.full ≤ p.placed)⟩) h
  unfold place
  cases hp : rs.push ⟨e, arc, decide (p.factor.full ≤ p.placed)⟩ with
  | mk ok rs' =>
    rw [hp] at h1 h2
    cases h1
    exact ⟨rfl, h2⟩

theorem placeAll_of_not_mem (arc : Arc T) (p : DatacenterProgress) {es : List Endpoint}
    (hn : es.Nodup) (h : ∀ e ∈ es, e ∉ rs.endpoints) :
    (placeAll arc es p rs).1 =
        { p with placed := p.placed + (es.take (p.need - p.placed)).length } ∧
      (placeAll arc es p rs).2.replicas =
        rs.replicas ++ tagged p.factor.full arc p.placed (es.take (p.need - p.placed)) := by
  induction es generalizing p rs with
  | nil => simp [placeAll, tagged]
  | cons e es ih =>
    rw [placeAll]
    by_cases hd : p.isDone
    · have h0 : p.need - p.placed = 0 := by
        rw [isDone, decide_eq_true_eq] at hd
        omega
      simp [hd, h0, tagged]
    · have hroom : p.need - p.placed = (p.need - (p.placed + 1)) + 1 := by
        simp only [isDone, decide_eq_true_eq] at hd
        omega
      obtain ⟨h1, h2⟩ := place_of_not_mem arc p (h e (.head _))
      obtain ⟨hne, hn⟩ := List.nodup_cons.1 hn
      have hrest : ∀ e' ∈ es, e' ∉ (place arc e p rs).2.endpoints := by
        intro e' he' hm
        rw [ReplicaSet.endpoints, h2, List.map_append, List.mem_append] at hm
        rcases hm with hm | hm
        · exact h e' (.tail _ he') hm
        · have he : e' = e := List.mem_singleton.1 hm
          exact hne (he ▸ he')
      obtain ⟨h3, h4⟩ := ih (place arc e p rs).1 hn hrest
      rw [if_neg hd, h3, h4, h1, h2, hroom, List.take_succ_cons, tagged_cons]
      simp only [List.length_cons, List.append_assoc, List.singleton_append, and_true]
      congr 1
      omega

end DatacenterProgress

/-! ## One datacenter -/

/-- The counters of a datacenter agree with its ledger. -/
structure Agrees (rf : ReplicationFactor) (racks : Finset String) (quota : Nat) (l : Ledger)
    (p : DatacenterProgress) : Prop where
  factor : p.factor = rf
  need : p.need = quota
  placed : p.placed = l.placed.length
  rackCount : p.rackCount = racks.card
  nodup : p.seenRacks.Nodup
  seen : p.seenRacks.toFinset = l.seenRacks
  known : l.seenRacks ⊆ racks
  setAside : l.placed.length < quota → p.setAside = l.skipped.map Node.endpoint

namespace Agrees

variable {rf : ReplicationFactor} {racks : Finset String} {quota : Nat} {l : Ledger}
  {p : DatacenterProgress} {n : Node} {rs : ReplicaSet T}

theorem start (rf : ReplicationFactor) (racks : Finset String) (endpoints : Nat) :
    Agrees rf racks (min rf.all endpoints) .empty (.start rf endpoints racks.card) where
  factor := rfl
  need := rfl
  placed := rfl
  rackCount := rfl
  nodup := List.nodup_nil
  seen := rfl
  known := Finset.empty_subset _
  setAside _ := rfl

theorem isDone_eq (h : Agrees rf racks quota l p) :
    p.isDone = decide (quota ≤ l.placed.length) := by
  rw [DatacenterProgress.isDone, h.need, h.placed]

/-- Counting racks decides whether all are seen. -/
theorem racksExhausted_eq (h : Agrees rf racks quota l p) :
    p.racksExhausted = decide (l.seenRacks = racks) := by
  have hc : p.seenRacks.length = l.seenRacks.card := by
    rw [← h.seen, List.toFinset_card_of_nodup h.nodup]
  rw [DatacenterProgress.racksExhausted, h.rackCount, hc, decide_eq_decide]
  exact ⟨Finset.eq_of_subset_of_card_le h.known, fun e => e ▸ Nat.le_refl _⟩

theorem mem_seenRacks (h : Agrees rf racks quota l p) {rack : String} :
    rack ∈ p.seenRacks ↔ rack ∈ l.seenRacks := by
  rw [← h.seen, List.mem_toFinset]

/-- Placing those set aside is taking from the nodes skipped until the quota is met. -/
theorem drain (arc : Arc T) (h : Agrees rf racks quota l p)
    (hset : p.setAside = l.skipped.map Node.endpoint)
    (hn : (l.skipped.map Node.endpoint).Nodup)
    (hfresh : ∀ m ∈ l.skipped, m.endpoint ∉ rs.endpoints) :
    Agrees rf racks quota
        ⟨l.placed ++ l.skipped.take (quota - l.placed.length), l.seenRacks,
          l.skipped.drop (quota - l.placed.length)⟩
        (DatacenterProgress.placeAll arc p.setAside { p with setAside := [] } rs).1 ∧
      (DatacenterProgress.placeAll arc p.setAside { p with setAside := [] } rs).2.replicas =
        rs.replicas ++ tagged rf.full arc l.placed.length
          ((l.skipped.take (quota - l.placed.length)).map Node.endpoint) := by
  have hrest : ∀ e ∈ p.setAside, e ∉ rs.endpoints := by
    intro e he
    rw [hset] at he
    obtain ⟨m, hm, rfl⟩ := List.mem_map.1 he
    exact hfresh m hm
  obtain ⟨h1, h2⟩ := DatacenterProgress.placeAll_of_not_mem arc { p with setAside := [] }
    (hset ▸ hn) hrest
  have hroom : p.need - p.placed = quota - l.placed.length := by rw [h.need, h.placed]
  dsimp only at h1 h2
  rw [hroom, hset, ← List.map_take] at h1 h2
  rw [hset, h1, h2]
  refine ⟨?_, by rw [h.factor, h.placed]⟩
  exact { h with
    placed := by rw [List.length_append, List.length_map, h.placed]
    setAside := fun hlt => by
      -- a quota that is still open has taken all nodes skipped
      rw [List.length_append, List.length_take] at hlt
      rw [List.drop_of_length_le (by omega)]
      rfl }

section
variable (arc : Arc T) (h : Agrees rf racks quota l p) (hlt : l.placed.length < quota)
  (hn : n.endpoint ∉ rs.endpoints)
include h hlt hn

theorem offer_of_seen (hc : l.seenRacks = racks) :
    Agrees rf racks quota (l.consider racks quota n) (p.offer arc n.endpoint n.rack rs).1 ∧
      (p.offer arc n.endpoint n.rack rs).2.replicas = rs.replicas ++
        tagged rf.full arc l.placed.length ((l.placedBy racks quota n).map Node.endpoint) := by
  have hl := Ledger.consider_of_seen (n := n) hlt hc
  obtain ⟨h1, h2⟩ := DatacenterProgress.place_of_not_mem arc p hn
  unfold DatacenterProgress.offer
  rw [h.racksExhausted_eq, decide_eq_true hc, if_pos rfl, h1, h2,
    Ledger.placedBy_eq (congrArg Ledger.placed hl), hl]
  refine ⟨?_, by rw [h.factor, h.placed]; rfl⟩
  exact { h with
    placed := by simp [h.placed]
    setAside := fun _ => h.setAside hlt }

omit hn in
theorem offer_of_used (hc : l.seenRacks ≠ racks) (hm : n.rack ∈ l.seenRacks) :
    Agrees rf racks quota (l.consider racks quota n) (p.offer arc n.endpoint n.rack rs).1 ∧
      (p.offer arc n.endpoint n.rack rs).2.replicas = rs.replicas ++
        tagged rf.full arc l.placed.length ((l.placedBy racks quota n).map Node.endpoint) := by
  have hl := Ledger.consider_of_used hlt hc hm
  have h0 : l.placedBy racks quota n = [] :=
    Ledger.placedBy_eq (by rw [hl, List.append_nil])
  unfold DatacenterProgress.offer
  rw [h.racksExhausted_eq, decide_eq_false hc, if_neg Bool.false_ne_true,
    if_pos (h.mem_seenRacks.2 hm), h0, hl]
  refine ⟨?_, (List.append_nil _).symm⟩
  exact { h with
    setAside := fun _ => by rw [List.map_append, ← h.setAside hlt, List.map_singleton] }

theorem offer_of_not_used (hc : l.seenRacks ≠ racks) (hm : n.rack ∉ l.seenRacks)
    (hr : n.rack ∈ racks) (hfresh : ∀ m ∈ l.skipped, m.endpoint ∉ rs.endpoints)
    (hnodup : ((n :: l.skipped).map Node.endpoint).Nodup) :
    Agrees rf racks quota (l.consider racks quota n) (p.offer arc n.endpoint n.rack rs).1 ∧
      (p.offer arc n.endpoint n.rack rs).2.replicas = rs.replicas ++
        tagged rf.full arc l.placed.length ((l.placedBy racks quota n).map Node.endpoint) := by
  rw [List.map_cons, List.nodup_cons] at hnodup
  have hm' : n.rack ∉ p.seenRacks := fun hrs => hm (h.mem_seenRacks.1 hrs)
  have hp : Agrees rf racks quota
      { l with placed := l.placed ++ [n], seenRacks := insert n.rack l.seenRacks }
      { p with placed := p.placed + 1, seenRacks := n.rack :: p.seenRacks } := { h with
    placed := by simp [h.placed]
    nodup := List.nodup_cons.2 ⟨hm', h.nodup⟩
    seen := by rw [List.toFinset_cons, h.seen]
    known := Finset.insert_subset hr h.known
    setAside := fun _ => h.setAside hlt }
  unfold DatacenterProgress.offer
  rw [h.racksExhausted_eq, decide_eq_false hc, if_neg Bool.false_ne_true, if_neg hm']
  obtain ⟨h1, h2⟩ := DatacenterProgress.place_of_not_mem arc
    { p with seenRacks := n.rack :: p.seenRacks } hn
  revert h1 h2
  generalize DatacenterProgress.place arc n.endpoint
    { p with seenRacks := n.rack :: p.seenRacks } rs = placing
  obtain ⟨p', rs'⟩ := placing
  rintro rfl h2
  dsimp only at h2 ⊢
  rw [h.factor, h.placed] at h2
  rw [hp.racksExhausted_eq]
  by_cases hi : insert n.rack l.seenRacks = racks
  · have hl := Ledger.consider_of_last hlt hc hm hi
    have hrest : ∀ m ∈ l.skipped, m.endpoint ∉ rs'.endpoints := by
      intro m hm' hmem
      rw [ReplicaSet.endpoints, h2, List.map_append, List.mem_append] at hmem
      rcases hmem with hmem | hmem
      · exact hfresh m hm' hmem
      · have he : m.endpoint = n.endpoint := List.mem_singleton.1 hmem
        exact hnodup.1 (he ▸ List.mem_map_of_mem hm')
    obtain ⟨h3, h4⟩ := hp.drain arc (h.setAside hlt) hnodup.2 hrest
    rw [decide_eq_true hi, if_pos rfl, Ledger.placedBy_eq (by rw [hl, List.append_assoc]), hl]
    refine ⟨h3, h4.trans ?_⟩
    rw [h2, List.append_assoc, List.singleton_append, List.singleton_append, List.map_cons,
      tagged_cons, List.length_append, List.length_singleton]
  · have hl := Ledger.consider_of_new hlt hc hm hi
    rw [decide_eq_false hi, if_neg Bool.false_ne_true,
      Ledger.placedBy_eq (congrArg Ledger.placed hl), hl]
    exact ⟨hp, h2⟩

/-- An offer does what the ledger says, if the node and those skipped hold no replica yet. -/
theorem offer (hr : n.rack ∈ racks)
    (hs : l.seenRacks ≠ racks → (∀ m ∈ l.skipped, m.endpoint ∉ rs.endpoints) ∧
      ((n :: l.skipped).map Node.endpoint).Nodup) :
    Agrees rf racks quota (l.consider racks quota n) (p.offer arc n.endpoint n.rack rs).1 ∧
      (p.offer arc n.endpoint n.rack rs).2.replicas = rs.replicas ++
        tagged rf.full arc l.placed.length ((l.placedBy racks quota n).map Node.endpoint) := by
  by_cases hc : l.seenRacks = racks
  · exact offer_of_seen arc h hlt hn hc
  by_cases hm : n.rack ∈ l.seenRacks
  · exact offer_of_used arc h hlt hc hm
  · obtain ⟨hfresh, hnodup⟩ := hs hc
    exact offer_of_not_used arc h hlt hn hc hm hr hfresh hnodup

end

end Agrees

/-! ## All datacenters -/

section
variable {q : Quotas} {d : Directory} {ns : List Node} {n : Node}

/-- The replicas that one more node adds, marked at once as the run marks them in the end. -/
theorem replicas_procedure_concat (arc : Arc T) (hn : (ns ++ [n]).Nodup)
    (hr : ∀ m ∈ ns ++ [n], m.rack ∈ d.rackSet m.datacenter) :
    (procedure q d (ns ++ [n])).replicas q arc = (procedure q d ns).replicas q arc ++
      tagged (q.factorFor n.datacenter).full arc
        ((procedure q d ns).ledgers n.datacenter).placed.length
        ((((procedure q d ns).ledgers n.datacenter).placedBy (d.rackSet n.datacenter)
          (q.need d n.datacenter) n).map Node.endpoint) := by
  have hn' := (List.nodup_append.1 hn).1
  have hr' : ∀ m ∈ ns, m.rack ∈ d.rackSet m.datacenter := fun m hm =>
    hr m (List.mem_append_left _ hm)
  have hnodup : ((procedure q d (ns ++ [n])).ledgers n.datacenter).placed.Nodup :=
    nodup_placed hn hr _
  have hmem : ∀ m ∈ ((procedure q d (ns ++ [n])).ledgers n.datacenter).placed,
      m.datacenter = n.datacenter := fun m hm => (mem_of_mem_placed hn hr hm).2
  have hplaced : ((procedure q d (ns ++ [n])).ledgers n.datacenter).placed =
      ((procedure q d ns).ledgers n.datacenter).placed ++
        ((procedure q d ns).ledgers n.datacenter).placedBy (d.rackSet n.datacenter)
          (q.need d n.datacenter) n := by
    rw [procedure_concat, Run.ledgers_visit, if_pos rfl, Ledger.placed_consider]
  have horder : (procedure q d (ns ++ [n])).order = (procedure q d ns).order ++
      ((procedure q d ns).ledgers n.datacenter).placedBy (d.rackSet n.datacenter)
        (q.need d n.datacenter) n := by
    rw [procedure_concat, Run.order_visit]
  rw [Run.replicas, horder, List.map_append]
  congr 1
  · -- a node placed before keeps its position
    refine List.map_congr_left fun m hm => ?_
    have hm := (mem_order_procedure hn' hr').1 hm
    by_cases hdc : m.datacenter = n.datacenter
    · rw [hdc] at hm ⊢
      dsimp only
      rw [hplaced, List.idxOf_append_of_mem hm]
    · rw [procedure_concat, Run.ledgers_visit, if_neg hdc]
  · rw [← map_idxOf_eq_tagged _ arc (hplaced ▸ hnodup)]
    refine List.map_congr_left fun m hm => ?_
    have hdc : m.datacenter = n.datacenter := hmem m (hplaced ▸ List.mem_append_right _ hm)
    rw [hdc]
    dsimp only
    rw [hplaced]

/-- The state of the walk tracks a run: the replicas are the same, and the counters of every
configured datacenter agree with its ledger. -/
structure Tracks (q : Quotas) (d : Directory) (arc : Arc T) (r : Run) (s : Progress T) : Prop where
  replicas : s.replicas.replicas = r.replicas q arc
  unconfigured : ∀ dc, q.get? dc = none → s.datacenters.get? dc = none
  configured : ∀ dc rf, q.get? dc = some rf → ∃ p, s.datacenters.get? dc = some p ∧
    Agrees rf (d.rackSet dc) (q.need d dc) (r.ledgers dc) p

theorem Tracks.start (q : Quotas) (d : Directory) (arc : Arc T) :
    Tracks q d arc .start (Progress.start q d) where
  replicas := rfl
  unconfigured dc h := by
    rw [Progress.start, OrderedMap.get?_mapValues, h]
    rfl
  configured dc rf h := by
    refine ⟨_, by rw [Progress.start, OrderedMap.get?_mapValues, h]; rfl, ?_⟩
    rw [Directory.rackCount_eq, Quotas.need, Quotas.factorFor, h]
    exact .start _ _ _

/-- Whoever holds a replica is a node placed before. -/
theorem Tracks.mem_endpoints {r : Run} {s : Progress T} (h : Tracks q d arc r s) {e : Endpoint} :
    e ∈ s.replicas.endpoints ↔ ∃ m ∈ r.order, m.endpoint = e := by
  rw [ReplicaSet.endpoints, h.replicas, Run.endpoints_replicas, List.mem_map]

section
variable {s : Progress T} (h : Tracks q d arc (procedure q d ns) s)
  (he : ((ns ++ [n]).map Node.endpoint).Nodup)
  (hr : ∀ m ∈ ns ++ [n], m.rack ∈ d.rackSet m.datacenter)
include h he hr

/-- One more node can be offered to its datacenter if the quota there is open. -/
theorem Tracks.offer {rf : ReplicationFactor} {p : DatacenterProgress}
    (ha : Agrees rf (d.rackSet n.datacenter) (q.need d n.datacenter)
      ((procedure q d ns).ledgers n.datacenter) p)
    (hlt : ((procedure q d ns).ledgers n.datacenter).placed.length < q.need d n.datacenter) :
    Agrees rf (d.rackSet n.datacenter) (q.need d n.datacenter)
        (((procedure q d ns).ledgers n.datacenter).consider (d.rackSet n.datacenter)
          (q.need d n.datacenter) n)
        (p.offer arc n.endpoint n.rack s.replicas).1 ∧
      (p.offer arc n.endpoint n.rack s.replicas).2.replicas = s.replicas.replicas ++
        tagged rf.full arc ((procedure q d ns).ledgers n.datacenter).placed.length
          ((((procedure q d ns).ledgers n.datacenter).placedBy (d.rackSet n.datacenter)
            (q.need d n.datacenter) n).map Node.endpoint) := by
  have hn' := (List.nodup_append.1 he.of_map).1
  have hr' : ∀ m ∈ ns, m.rack ∈ d.rackSet m.datacenter := fun m hm =>
    hr m (List.mem_append_left _ hm)
  rw [List.map_append] at he
  obtain ⟨hens, -, hdisj⟩ := List.nodup_append.1 he
  have hnew : ∀ m ∈ ns, m.endpoint ≠ n.endpoint := fun m hm =>
    hdisj _ (List.mem_map_of_mem hm) _ (by simp)
  have hfresh : n.endpoint ∉ s.replicas.endpoints := by
    rw [h.mem_endpoints]
    rintro ⟨m, hm, he⟩
    exact hnew m (order_subset_procedure hn' hr' hm) he
  refine ha.offer arc hlt hfresh (hr n (by simp)) fun hc => ?_
  obtain ⟨hsub, hout⟩ := skipped_procedure hn' hr' hlt hc
  refine ⟨fun m hm => ?_, List.nodup_cons.2 ⟨fun hm => ?_, hens.sublist (hsub.map _)⟩⟩
  · rw [h.mem_endpoints]
    rintro ⟨m', hm', he'⟩
    cases List.inj_on_of_nodup_map hens (order_subset_procedure hn' hr' hm') (hsub.subset hm) he'
    exact hout m hm hm'
  · obtain ⟨m, hm, he⟩ := List.mem_map.1 hm
    exact hnew m (hsub.subset hm) he

theorem Tracks.visit : Tracks q d arc (procedure q d (ns ++ [n])) (s.visit arc n) := by
  cases hq : q.get? n.datacenter with
  | none =>
    have hk : n.datacenter ∉ q.keys := by simp [OrderedMap.mem_keys_iff, hq]
    rw [procedure_concat, Run.visit_of_met (by rw [need_of_not_mem hk]; exact Nat.zero_le _),
      Progress.visit, h.unconfigured _ hq]
    exact h
  | some rf =>
    obtain ⟨p, hp, ha⟩ := h.configured _ rf hq
    simp only [Progress.visit, hp, ha.isDone_eq]
    by_cases hmet : q.need d n.datacenter ≤ ((procedure q d ns).ledgers n.datacenter).placed.length
    · rw [procedure_concat, Run.visit_of_met hmet, decide_eq_true hmet, if_pos rfl]
      exact h
    rw [decide_eq_false hmet, if_neg Bool.false_ne_true]
    obtain ⟨hagrees, hreplicas⟩ := h.offer he hr ha (by omega)
    refine ⟨?_, fun dc hdc => ?_, fun dc rf' hdc => ?_⟩
    · rw [replicas_procedure_concat arc he.of_map hr, ← h.replicas, Quotas.factorFor, hq]
      exact hreplicas
    · rw [OrderedMap.get?_insert, if_neg fun e => by rw [e, hq] at hdc; cases hdc]
      exact h.unconfigured dc hdc
    · rw [OrderedMap.get?_insert, procedure_concat, Run.ledgers_visit]
      split
      · rename_i e
        rw [e, hq] at hdc
        cases hdc
        rw [e]
        exact ⟨_, rfl, hagrees⟩
      · exact h.configured dc rf' hdc

end

/-- **The walk tracks the procedure** over any nodes with distinct endpoints on known racks. -/
theorem tracks_foldl (arc : Arc T) (he : (ns.map Node.endpoint).Nodup)
    (hr : ∀ n ∈ ns, n.rack ∈ d.rackSet n.datacenter) :
    Tracks q d arc (procedure q d ns) (ns.foldl (Progress.visit arc) (Progress.start q d)) := by
  induction ns using List.reverseRecOn with
  | nil => exact .start q d arc
  | append_singleton ns n ih =>
    rw [List.foldl_append]
    refine Tracks.visit (ih ?_ fun m hm => hr m (List.mem_append_left _ hm)) he hr
    rw [List.map_append] at he
    exact (List.nodup_append.1 he).1

end

/-! ## The walk of a snapshot -/

section
variable [Token T] (q : Quotas) (s : Snapshot T) (t : T)

theorem rack_mem_of_mem_nodesFrom {n : Node} (h : n ∈ s.nodesFrom t) :
    n.rack ∈ s.directory.rackSet n.datacenter :=
  Directory.mem_rackSet.2 ⟨n, Snapshot.mem_nodesFrom.1 h, rfl, rfl⟩

theorem replicas_rackAware_of_arc {arc : Arc T} (h : s.ring.arcFor? t = some arc) :
    (rackAware q s t).replicas = (procedure q s.directory (s.nodesFrom t)).replicas q arc := by
  rw [rackAware, h]
  dsimp only
  rw [Progress.visitAll_eq_foldl rfl]
  exact (tracks_foldl arc (s.nodup_endpoints_nodesFrom t) fun _ =>
    rack_mem_of_mem_nodesFrom s t).replicas

/-- The replicas that the procedure gives when it runs over the nodes in ring order from `t`: the
owners of the tokens from `t` on and then of those below, each where it is met first. -/
def replicasByProcedure : List (Replica T) :=
  match s.ring.arcFor? t with
  | none => []
  | some arc =>
    let owners := ((s.ring.vnodesFrom t).map VirtualNode.node).eraseDups
    (procedure q s.directory (owners.filterMap s.directory.node?)).replicas q arc

/-- **Placement spread over racks is what the procedure over the whole ring gives**, in the same
order and with the same transient replicas, for every snapshot, all quotas and every token. -/
theorem rackAware_eq_replicasByProcedure :
    (rackAware q s t).replicas = replicasByProcedure q s t := by
  unfold replicasByProcedure
  split
  · rename_i h
    rw [rackAware, h]
    rfl
  · rename_i arc h
    rw [replicas_rackAware_of_arc q s t h, Snapshot.nodesFrom, TokenRing.toList_walk]

end

end Placement

end ReplicaRing
