import ReplicaRing.Proofs.Queue
import ReplicaRing.Proofs.Quota

/-!
# Replicas by datacenter

Grouping a replica set deals its replicas out to the datacenters of a directory, each in its turn.
A group lists the replicas of one datacenter as they were placed, and what is known to the directory
is in one group. A placement is grouped by the directory that it was computed from, which knows all
its endpoints.

* `OrderedMap.values_groups_perm`: no value is lost among groups, by induction on what is dealt out.
* `ReplicaSet.get?_byDatacenter`: the group of a datacenter is its share of the set.
* `Placement.pairwise_within`: in the share of a datacenter full replicas come first.
* `ReplicaSet.grouped_by_datacenter`: what grouping does to any set and to a placement.
-/

namespace ReplicaRing

/-! ## Groups -/

namespace OrderedMap

variable {K V : Type} [LE K] [LT K] [DecidableLT K] [Std.IsLinearOrder K] [Std.LawfulOrderLT K]

omit [LE K] [Std.IsLinearOrder K] [Std.LawfulOrderLT K] in
/-- One more value goes to the end of its group, and all others stay. -/
theorem flatten_alterEntries (k : K) (v : V) (l : List (K × List V)) :
    ((alterEntries k (fun old => old.getD [] ++ [v]) l).map Prod.snd).flatten.Perm
      ((l.map Prod.snd).flatten ++ [v]) := by
  induction l with
  | nil => exact .refl _
  | cons a rest ih =>
    rw [alterEntries]
    split
    · exact List.perm_append_comm
    · split
      · simp only [List.map_cons, List.flatten_cons, List.append_assoc]
        exact ih.append_left _
      · simp only [List.map_cons, List.flatten_cons, Option.getD_some, List.append_assoc]
        exact List.perm_append_comm.append_left _

/-- **The groups together hold what was dealt out.** -/
theorem values_groups_perm (pairs : List (K × V)) :
    (groups pairs).values.flatten.Perm (pairs.map Prod.snd) := by
  suffices h : ∀ m : OrderedMap K (List V),
      (pairs.foldl (fun m e => m.alter e.1 fun old => old.getD [] ++ [e.2]) m).values.flatten.Perm
        (m.values.flatten ++ pairs.map Prod.snd) from h ∅
  induction pairs with
  | nil =>
    intro m
    rw [List.map_nil, List.append_nil]
    exact .refl _
  | cons a rest ih =>
    intro m
    have hstep : (m.alter a.1 fun old => old.getD [] ++ [a.2]).values.flatten.Perm
        (m.values.flatten ++ [a.2]) := flatten_alterEntries a.1 a.2 m.toList
    rw [List.foldl_cons, List.map_cons, List.append_cons]
    exact (ih _).trans (hstep.append_right _)

end OrderedMap

namespace Directory

variable {d : Directory} {dc : String} {e : Endpoint}

theorem locationAt?_eq_some_iff {l : Location} :
    d.locationAt? e = some l ↔ ∃ n ∈ d.nodes, n.endpoint = e ∧ n.location = l := by
  constructor
  · intro h
    obtain ⟨id, hid, hl⟩ := Option.bind_eq_some_iff.1 h
    obtain ⟨n, hn, he, rfl⟩ := (d.peers_get? _ _).1 hid
    rw [locationOf?, node?_of_mem hn, Option.map_some, Option.some.injEq] at hl
    exact ⟨n, hn, he, hl⟩
  · rintro ⟨n, hn, rfl, rfl⟩
    exact locationAt?_of_mem hn

theorem isSome_locationAt? (d : Directory) (e : Endpoint) :
    (d.locationAt? e).isSome = (d.idAt? e).isSome := by
  rw [Bool.eq_iff_iff, Option.isSome_iff_exists, Option.isSome_iff_exists]
  simp only [locationAt?_eq_some_iff, idAt?, d.peers_get?]
  constructor
  · rintro ⟨_, n, hn, he, -⟩
    exact ⟨n.id, n, hn, he, rfl⟩
  · rintro ⟨_, n, hn, he, -⟩
    exact ⟨n.location, n, hn, he, rfl⟩

/-- The endpoints of a datacenter are those that the directory places there. -/
theorem mem_endpointsIn_iff_locationAt? :
    e ∈ d.endpointsIn dc ↔ ∃ l, d.locationAt? e = some l ∧ l.datacenter = dc := by
  simp only [mem_endpointsIn, locationAt?_eq_some_iff]
  constructor
  · rintro ⟨n, hn, hdc, he⟩
    exact ⟨n.location, ⟨n, hn, he, rfl⟩, hdc⟩
  · rintro ⟨_, ⟨n, hn, he, rfl⟩, hdc⟩
    exact ⟨n, hn, hdc, he⟩

end Directory

namespace ReplicaSet

variable {T : Type} (rs : ReplicaSet T) (d : Directory)

/-- What is dealt out to the datacenters with some property. -/
theorem map_snd_dealt (p : String → Bool) (replicas : List (Replica T)) :
    ((replicas.filterMap fun r =>
        (d.locationAt? r.endpoint).map fun l => (l.datacenter, r)).filter fun e => p e.1).map
      Prod.snd =
    replicas.filter fun r => (d.locationAt? r.endpoint).any fun l => p l.datacenter := by
  induction replicas with
  | nil => rfl
  | cons r rest ih =>
    cases hl : d.locationAt? r.endpoint with
    | none => simp [hl, ih]
    | some l =>
      cases hp : p l.datacenter with
      | false => simp [hl, hp, ih]
      | true => simp [hl, hp, ih]

/-- **The group of a datacenter** is its share of the set, if it has any. -/
theorem get?_byDatacenter {dc : String} {group : List (Replica T)} :
    (rs.byDatacenter d).get? dc = some group ↔ group ≠ [] ∧ group = rs.within d dc := by
  have hshare : (rs.replicas.filter fun r =>
      (d.locationAt? r.endpoint).any fun l => decide (l.datacenter = dc)) = rs.within d dc := by
    refine List.filter_congr fun r _ => ?_
    rw [Bool.eq_iff_iff, Option.any_eq_true, decide_eq_true_eq,
      Directory.mem_endpointsIn_iff_locationAt?]
    simp only [decide_eq_true_eq]
  rw [byDatacenter, OrderedMap.get?_groups_eq_some_iff, map_snd_dealt d (fun k => decide (k = dc)),
    hshare]

theorem mem_keys_byDatacenter {dc : String} :
    dc ∈ (rs.byDatacenter d).keys ↔ rs.within d dc ≠ [] := by
  rw [OrderedMap.mem_keys_iff, Option.isSome_iff_exists]
  simp only [get?_byDatacenter, exists_eq_right]

/-- The replicas whose endpoints a directory knows. -/
def knownTo : List (Replica T) := rs.replicas.filter fun r => (d.idAt? r.endpoint).isSome

/-- **Grouping loses no replica that the directory knows.** -/
theorem values_byDatacenter_perm : (rs.byDatacenter d).values.flatten.Perm (rs.knownTo d) := by
  have hdealt := map_snd_dealt d (fun _ => true) rs.replicas
  simp only [List.filter_true, Option.any_true, d.isSome_locationAt?] at hdealt
  rw [knownTo, ← hdealt]
  exact OrderedMap.values_groups_perm _

theorem mem_within_iff {n : Node} (hn : n ∈ d.nodes) {r : Replica T} (hr : r ∈ rs.replicas)
    (he : n.endpoint = r.endpoint) {dc : String} : r ∈ rs.within d dc ↔ dc = n.datacenter := by
  rw [within, List.mem_filter, decide_eq_true_eq, ← he, Directory.mem_endpointsIn_iff hn,
    and_iff_right hr, eq_comm]

/-- How a replica set is grouped by the datacenters of a directory. -/
structure GroupedBy (d : Directory) (groups : OrderedMap String (List (Replica T))) : Prop where
  keys : Ascending id groups.keys
  group (dc : String) (group : List (Replica T)) :
    groups.get? dc = some group ↔ group ≠ [] ∧ group = rs.within d dc
  /-- A replica at the endpoint of a node is in the group of the node's datacenter only. -/
  known (r : Replica T) (hr : r ∈ rs.replicas) (n : Node) (hn : n ∈ d.nodes)
    (he : n.endpoint = r.endpoint) (dc : String) :
    (∃ group, groups.get? dc = some group ∧ r ∈ group) ↔ dc = n.datacenter
  unknown (r : Replica T) (he : ∀ n ∈ d.nodes, n.endpoint ≠ r.endpoint) (dc : String) :
    ¬∃ group, groups.get? dc = some group ∧ r ∈ group
  perm : groups.values.flatten.Perm (rs.knownTo d)

theorem groupedBy_byDatacenter : rs.GroupedBy d (rs.byDatacenter d) := by
  have hmem : ∀ (r : Replica T) (dc : String),
      (∃ group, (rs.byDatacenter d).get? dc = some group ∧ r ∈ group) ↔ r ∈ rs.within d dc := by
    intro r dc
    simp only [get?_byDatacenter]
    constructor
    · rintro ⟨_, ⟨-, rfl⟩, hr⟩
      exact hr
    · exact fun hr => ⟨_, ⟨List.ne_nil_of_mem hr, rfl⟩, hr⟩
  constructor
  case keys => exact (rs.byDatacenter d).ascending_keys
  case group => exact fun _ _ => rs.get?_byDatacenter d
  case known =>
    intro r hr n hn he dc
    rw [hmem, rs.mem_within_iff d hn hr he]
  case unknown =>
    intro r he dc
    rw [hmem, within, List.mem_filter, decide_eq_true_eq, Directory.mem_endpointsIn]
    rintro ⟨-, n, hn, -, hne⟩
    exact he n hn hne
  case perm => exact rs.values_byDatacenter_perm d

end ReplicaSet

/-! ## Placements -/

section
variable {T : Type} [Token T] (s : Snapshot T) (t : T)

theorem Strategy.knownTo_place (σ : Strategy) :
    (σ.place s t).knownTo s.directory = (σ.place s t).replicas := by
  refine List.filter_eq_self.2 fun r hr => ?_
  obtain ⟨n, hn, he⟩ := mem_endpoints_place.1 (List.mem_map_of_mem hr)
  rw [← he, Directory.idAt?,
    (s.directory.peers_get? _ _).2 ⟨n, mem_nodes_of_mem_chosen hn, rfl, rfl⟩]
  rfl

namespace Placement

variable (q : Quotas)

/-- Once a replica of a datacenter is transient, all later ones are. -/
theorem pairwise_within (dc : String) :
    ((rackAware q s t).within s.directory dc).Pairwise fun a b =>
      a.isTransient = true → b.isTransient = true := by
  have hgrade : (((rackAware q s t).within s.directory dc).map Replica.grade).Pairwise fun a b =>
      a.2 = true → b.2 = true := by
    rw [grade_within, List.pairwise_iff_getElem]
    intro i j hi hj hij
    simp only [List.getElem_mapIdx, decide_eq_true_eq]
    omega
  exact List.pairwise_map.1 hgrade

/-- A datacenter gets replicas if it has a quota and nodes to fill it. -/
theorem within_ne_nil_iff (dc : String) : (rackAware q s t).within s.directory dc ≠ [] ↔
    ∃ rf, q.get? dc = some rf ∧ 0 < rf.full + rf.transient ∧
      ∃ n ∈ s.directory.nodes, n.datacenter = dc := by
  have hnodes : 0 < (s.directory.endpointsIn dc).length ↔
      ∃ n ∈ s.directory.nodes, n.datacenter = dc := by
    simp [List.length_pos_iff_exists_mem, Directory.mem_endpointsIn]
  rw [← List.length_pos_iff, length_within, Quotas.need, Nat.lt_min, hnodes, Quotas.factorFor]
  cases q.get? dc with
  | none => simp [ReplicationFactor.all, ReplicationFactor.zero]
  | some rf => simp [ReplicationFactor.all]

end Placement

end

/-- **Grouping by datacenter loses nothing and keeps the order of placement.** Whatever the set and
the directory, the groups are the shares of the datacenters in ascending order. Each replica whose
endpoint is known is in the group of its datacenter, and the others are in none. No replica of a
placement is left out, and if it is spread over racks, the groups are those of the datacenters with
a quota and with nodes, full replicas before transient ones. -/
theorem ReplicaSet.grouped_by_datacenter {T : Type} [Token T] :
    (∀ (rs : ReplicaSet T) (d : Directory), rs.GroupedBy d (rs.byDatacenter d)) ∧
    (∀ (σ : Strategy) (s : Snapshot T) (t : T),
      let groups := (σ.place s t).byDatacenter s.directory
      groups.values.flatten.Perm (σ.place s t).replicas ∧
        (groups.values.map List.length).sum = (σ.place s t).size) ∧
    ∀ (q : Placement.Quotas) (s : Snapshot T) (t : T),
      let groups := ((Strategy.networkTopology q).place s t).byDatacenter s.directory
      (∀ dc, dc ∈ groups.keys ↔ ∃ rf, q.get? dc = some rf ∧ 0 < rf.full + rf.transient ∧
        ∃ n ∈ s.directory.nodes, n.datacenter = dc) ∧
      ∀ dc group, groups.get? dc = some group →
        group.Pairwise fun a b => a.isTransient = true → b.isTransient = true := by
  refine ⟨fun rs d => rs.groupedBy_byDatacenter d, fun σ s t => ?_, fun q s t => ⟨fun dc => ?_, ?_⟩⟩
  · have hperm := (σ.place s t).values_byDatacenter_perm s.directory
    rw [σ.knownTo_place] at hperm
    refine ⟨hperm, ?_⟩
    rw [← List.length_flatten]
    exact hperm.length_eq
  · rw [mem_keys_byDatacenter]
    exact Placement.within_ne_nil_iff s t q dc
  · intro dc group h
    obtain ⟨-, rfl⟩ := (get?_byDatacenter _ _).1 h
    exact Placement.pairwise_within s t q dc

/-- The sample cluster: a placement in two groups, and a set with a replica unknown to it. -/
theorem ReplicaSet.grouped_by_datacenter_fourNodes :
    let d := Snapshot.fourNodes.directory
    let placed := (Strategy.networkTopology Placement.fourNodesQuotas).place .fourNodes
      (⟨45⟩ : LongToken)
    let n1 := Snapshot.numbered 1 "west" "a"
    let known : Replica LongToken := ⟨n1.endpoint, ⟨⟨40⟩, ⟨50⟩⟩, false⟩
    let stranger : Replica LongToken := ⟨.v4 99 7000, ⟨⟨40⟩, ⟨50⟩⟩, false⟩
    let mixed := ReplicaSet.ofList [stranger, known]
    (placed.byDatacenter d).keys = ["east", "west"] ∧
      ((placed.byDatacenter d).values.map List.length).sum = placed.size ∧
      (∃ rf, Placement.fourNodesQuotas.get? "west" = some rf ∧ 0 < rf.full + rf.transient ∧
        ∃ n ∈ d.nodes, n.datacenter = "west") ∧
      (placed.within d "west").Pairwise
        (fun a b => a.isTransient = true → b.isTransient = true) ∧
      (∃ group, (mixed.byDatacenter d).get? "west" = some group ∧ known ∈ group) ∧
      ∀ dc, ¬∃ group, (mixed.byDatacenter d).get? dc = some group ∧ stranger ∈ group := by
  intro d placed n1 known stranger mixed
  obtain ⟨hgrouped, hplaced, hshares⟩ := grouped_by_datacenter (T := LongToken)
  have hkeys : (placed.byDatacenter d).keys = ["east", "west"] := by decide
  have hwest : "west" ∈ (placed.byDatacenter d).keys := by rw [hkeys]; exact .tail _ (.head _)
  have hmixed := hgrouped mixed d
  obtain ⟨hin, hfull⟩ := hshares Placement.fourNodesQuotas .fourNodes ⟨45⟩
  exact ⟨hkeys, (hplaced _ .fourNodes ⟨45⟩).2, (hin "west").1 hwest,
    hfull "west" _ (((hgrouped placed d).group "west" _).2
      ⟨(mem_keys_byDatacenter _ _).1 hwest, rfl⟩),
    (hmixed.known known (by decide) n1 (by decide) rfl "west").2 rfl,
    hmixed.unknown stranger (by decide)⟩

end ReplicaRing
