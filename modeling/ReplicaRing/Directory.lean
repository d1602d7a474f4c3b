import ReplicaRing.Directory.Registry

/-!
# The directory of nodes

Who the members of the cluster are, where they live and how to reach them. When all nodes have been
registered, the directory indexes their endpoints by datacenter, and by datacenter and rack.

* `ofList` makes a directory of nodes, or says which of them collide.
* `Registry.get?_byDatacenter`, `Registry.getIn?_byRack`: what the two passes over the nodes put
  into the indexes, the latter whatever the order in which it goes through the locations
  (`Registry.foldl_enterRack_perm`). A directory carries that its indexes hold just this.
* `mem_datacenters`, `endpointsIn_eq`, `get?_racksIn`: what is read from the indexes.
-/

namespace ReplicaRing

/-! ## Passes over the nodes -/

namespace Registry

/-- Gathering the endpoints of nodes by some property of the nodes. -/
theorem map_ascendingSet_get?_groups {K : Type} [LE K] [LT K] [DecidableLT K]
    [Std.IsLinearOrder K] [Std.LawfulOrderLT K] [DecidableEq K] (r : Registry) (key : Node → K)
    (k : K) (es : List Endpoint) :
    ((OrderedMap.groups (r.nodes.map fun n => (key n, n.endpoint))).get? k).map ascendingSet =
        some es ↔
      es ≠ [] ∧ es = r.endpointsWhere fun n => decide (key n = k) := by
  have hgroup : ((r.nodes.map fun n => (key n, n.endpoint)).filter fun e =>
      decide (e.1 = k)).map Prod.snd =
        (r.nodes.filter fun n => decide (key n = k)).map Node.endpoint := by
    rw [List.filter_map, List.map_map]
    rfl
  simp only [Option.map_eq_some_iff, OrderedMap.get?_groups_eq_some_iff, hgroup]
  constructor
  · rintro ⟨group, ⟨hne, rfl⟩, rfl⟩
    exact ⟨mt ascendingSet_eq_nil_iff.1 hne, rfl⟩
  · rintro ⟨hne, rfl⟩
    exact ⟨_, ⟨mt ascendingSet_eq_nil_iff.2 hne, rfl⟩, rfl⟩

/-- The endpoints of each datacenter, gathered from the nodes. -/
def byDatacenter (r : Registry) : OrderedMap String (List Endpoint) :=
  (OrderedMap.groups (r.nodes.map fun n => (n.datacenter, n.endpoint))).mapValues fun _ group =>
    ascendingSet group

theorem get?_byDatacenter (r : Registry) (dc : String) (es : List Endpoint) :
    r.byDatacenter.get? dc = some es ↔
      es ≠ [] ∧ es = r.endpointsWhere fun n => decide (n.datacenter = dc) := by
  rw [byDatacenter, OrderedMap.get?_mapValues]
  exact r.map_ascendingSet_get?_groups Node.datacenter dc es

/-- Enters the endpoints at a location among the racks of its datacenter. -/
def enterRack (racks : OrderedMap String (OrderedMap String (List Endpoint)))
    (group : Location × List Endpoint) : OrderedMap String (OrderedMap String (List Endpoint)) :=
  racks.insertIn group.1.datacenter group.1.rack (ascendingSet group.2)

/-- The endpoints of each rack, by datacenter: gathered by location, and then entered location by
location. -/
def byRack (r : Registry) : OrderedMap String (OrderedMap String (List Endpoint)) :=
  (OrderedMap.groups (r.nodes.map fun n => (n.location, n.endpoint))).toList.foldl enterRack ∅

section
variable {racks : OrderedMap String (OrderedMap String (List Endpoint))}
  {gathered : List (Location × List Endpoint)}

theorem getIn?_foldl_enterRack (h : (gathered.map Prod.fst).Nodup) (dc rack : String) :
    (gathered.foldl enterRack racks).getIn? dc rack =
      ((gathered.lookup ⟨dc, rack⟩).map ascendingSet).or (racks.getIn? dc rack) := by
  induction gathered generalizing racks with
  | nil => rfl
  | cons group rest ih =>
    rw [List.map_cons, List.nodup_cons] at h
    have hat : (dc = group.1.datacenter ∧ rack = group.1.rack) ↔ ⟨dc, rack⟩ = group.1 := by
      cases group.1
      simp
    rw [List.foldl_cons, ih h.2, OrderedMap.lookup_cons_ite, enterRack, OrderedMap.getIn?_insertIn]
    simp only [hat]
    by_cases hl : ⟨dc, rack⟩ = group.1
    · -- no other group is about this location
      have hnone : rest.lookup ⟨dc, rack⟩ = none := by
        rw [List.lookup_eq_none_iff]
        intro other hother
        simp only [bne_iff_ne, ne_eq]
        exact fun he => h.1 (hl ▸ he ▸ List.mem_map_of_mem hother)
      simp [hl, hl ▸ hnone]
    · simp [hl]

theorem foldl_enterRack_ne_empty (h : ∀ dc, racks.get? dc ≠ some ∅) (dc : String) :
    (gathered.foldl enterRack racks).get? dc ≠ some ∅ := by
  induction gathered generalizing racks with
  | nil => exact h dc
  | cons group rest ih => exact ih fun dc => OrderedMap.insertIn_ne_empty h _ _ _ dc

/-- **It does not matter in which order locations are entered.** -/
theorem foldl_enterRack_perm {gathered' : List (Location × List Endpoint)}
    (hp : gathered.Perm gathered') (h : (gathered.map Prod.fst).Nodup) :
    gathered.foldl enterRack ∅ = gathered'.foldl enterRack ∅ := by
  have h' : (gathered'.map Prod.fst).Nodup := (hp.map Prod.fst).nodup_iff.1 h
  refine OrderedMap.ext_getIn? (foldl_enterRack_ne_empty (by simp))
    (foldl_enterRack_ne_empty (by simp)) fun dc rack => ?_
  rw [getIn?_foldl_enterRack h, getIn?_foldl_enterRack h', OrderedMap.lookup_perm hp h]

end

theorem getIn?_byRack (r : Registry) (dc rack : String) (es : List Endpoint) :
    r.byRack.getIn? dc rack = some es ↔
      es ≠ [] ∧ es = r.endpointsWhere fun n => decide (n.location = ⟨dc, rack⟩) := by
  rw [byRack, getIn?_foldl_enterRack (OrderedMap.ascending _).nodup]
  refine Iff.trans ?_ (r.map_ascendingSet_get?_groups Node.location ⟨dc, rack⟩ es)
  rw [OrderedMap.getIn?, OrderedMap.get?_empty, Option.bind_none, Option.or_none]
  rfl

theorem byRack_ne_empty (r : Registry) (dc : String) : r.byRack.get? dc ≠ some ∅ :=
  foldl_enterRack_ne_empty (by simp) dc

end Registry

/-- Registered nodes with indexes of their endpoints. -/
structure Directory extends Registry where
  datacenterEndpoints : OrderedMap String (List Endpoint)
  datacenterRacks : OrderedMap String (OrderedMap String (List Endpoint))
  /-- A datacenter is listed if somebody is in it, with all endpoints there. -/
  datacenterEndpoints_get? (dc : String) (es : List Endpoint) :
    datacenterEndpoints.get? dc = some es ↔
      es ≠ [] ∧ es = toRegistry.endpointsWhere fun n => decide (n.datacenter = dc)
  /-- A rack is listed in its datacenter if somebody is at it, with all endpoints there. -/
  datacenterRacks_getIn? (dc rack : String) (es : List Endpoint) :
    datacenterRacks.getIn? dc rack = some es ↔
      es ≠ [] ∧ es = toRegistry.endpointsWhere fun n => decide (n.location = ⟨dc, rack⟩)
  datacenterRacks_ne_empty (dc : String) : datacenterRacks.get? dc ≠ some ∅

/-- The directory of the registered nodes. -/
def Registry.toDirectory (r : Registry) : Directory where
  toRegistry := r
  datacenterEndpoints := r.byDatacenter
  datacenterRacks := r.byRack
  datacenterEndpoints_get? := r.get?_byDatacenter
  datacenterRacks_getIn? := r.getIn?_byRack
  datacenterRacks_ne_empty := r.byRack_ne_empty

namespace Directory

/-- The directory without nodes. -/
def empty : Directory := Registry.empty.toDirectory

instance : Inhabited Directory := ⟨empty⟩

/-- The directory of the listed nodes, unless some of them collide. -/
def ofList (nodes : List Node) : Except RegistrationError Directory :=
  (Registry.ofList nodes).map Registry.toDirectory

/-- The indexes are determined by the nodes. -/
theorem ext_nodes {d d' : Directory} (h : d.nodes = d'.nodes) : d = d' := by
  obtain ⟨r, endpoints, racks, hendpoints, hracks, hne⟩ := d
  obtain ⟨r', endpoints', racks', hendpoints', hracks', hne'⟩ := d'
  obtain rfl : r = r' := Registry.ext_nodes h
  have he : endpoints = endpoints' :=
    OrderedMap.ext_get? fun dc => Option.ext fun es => by rw [hendpoints, hendpoints']
  have hr : racks = racks' := OrderedMap.ext_getIn? hne hne' fun dc rack =>
    Option.ext fun es => by rw [hracks, hracks']
  cases he
  cases hr
  rfl

instance : DecidableEq Directory := fun a b =>
  decidable_of_iff (a.nodes = b.nodes) ⟨ext_nodes, fun h => h ▸ rfl⟩

/-! ## Single nodes -/

def endpointOf? (d : Directory) (id : NodeId) : Option Endpoint :=
  (d.node? id).map Node.endpoint

def locationOf? (d : Directory) (id : NodeId) : Option Location :=
  (d.node? id).map Node.location

/-- The identity of the node at this endpoint. -/
def idAt? (d : Directory) (e : Endpoint) : Option NodeId := d.peers.get? e

def locationAt? (d : Directory) (e : Endpoint) : Option Location :=
  (d.idAt? e).bind d.locationOf?

/-- The number of nodes. -/
def size (d : Directory) : Nat := d.nodes.length

def isEmpty (d : Directory) : Bool := d.nodes.isEmpty

/-! ## Datacenters and racks -/

/-- The datacenters with a node, in ascending order. -/
def datacenters (d : Directory) : List String := d.datacenterEndpoints.keys

/-- The endpoints in a datacenter, in ascending order; none in an unknown one. -/
def endpointsIn (d : Directory) (dc : String) : List Endpoint :=
  (d.datacenterEndpoints.get? dc).getD []

/-- The racks of a datacenter, each with its endpoints in ascending order; none if it is unknown. -/
def racksIn (d : Directory) (dc : String) : OrderedMap String (List Endpoint) :=
  (d.datacenterRacks.get? dc).getD ∅

/-- The number of racks with a node in the datacenter. -/
def rackCount (d : Directory) (dc : String) : Nat := (d.racksIn dc).size

section
variable {d : Directory} {dc : String}

theorem endpointsIn_eq (d : Directory) (dc : String) :
    d.endpointsIn dc = d.endpointsWhere fun n => decide (n.datacenter = dc) := by
  have hdc := d.datacenterEndpoints_get? dc
  unfold endpointsIn
  cases h : d.datacenterEndpoints.get? dc with
  | some es => exact ((hdc es).1 h).2
  | none =>
    -- otherwise the endpoints would be listed
    refine Classical.byContradiction fun hne => ?_
    rw [(hdc _).2 ⟨fun he => hne he.symm, rfl⟩] at h
    cases h

theorem mem_endpointsIn {e : Endpoint} :
    e ∈ d.endpointsIn dc ↔ ∃ n ∈ d.nodes, n.datacenter = dc ∧ n.endpoint = e := by
  simp [endpointsIn_eq, Registry.mem_endpointsWhere]

theorem ascending_endpointsIn : Ascending id (d.endpointsIn dc) := by
  rw [endpointsIn_eq]
  exact d.ascending_endpointsWhere _

theorem mem_datacenters : dc ∈ d.datacenters ↔ ∃ n ∈ d.nodes, n.datacenter = dc := by
  rw [datacenters, OrderedMap.mem_keys_iff, Option.isSome_iff_exists]
  simp only [d.datacenterEndpoints_get?, exists_eq_right, Registry.endpointsWhere_ne_nil_iff,
    decide_eq_true_eq]

theorem ascending_datacenters : Ascending id d.datacenters :=
  d.datacenterEndpoints.ascending_keys

/-- A datacenter has those racks that somebody is at. -/
theorem get?_racksIn {rack : String} {es : List Endpoint} :
    (d.racksIn dc).get? rack = some es ↔
      es ≠ [] ∧ es = d.endpointsWhere fun n => decide (n.location = ⟨dc, rack⟩) := by
  rw [racksIn, OrderedMap.get?_getD_get?]
  exact d.datacenterRacks_getIn? dc rack es

theorem mem_keys_racksIn {rack : String} :
    rack ∈ (d.racksIn dc).keys ↔ ∃ n ∈ d.nodes, n.location = ⟨dc, rack⟩ := by
  rw [OrderedMap.mem_keys_iff, Option.isSome_iff_exists]
  simp only [get?_racksIn, exists_eq_right, Registry.endpointsWhere_ne_nil_iff, decide_eq_true_eq]

end

end Directory

end ReplicaRing
