import ReplicaRing.Proofs.Quota
import ReplicaRing.Proofs.Refusal
import ReplicaRing.Proofs.Roster

/-!
# The indexes of a directory

A directory keeps its nodes and three indexes of their endpoints, each filled in a pass of its own:
by endpoint, by datacenter, and by datacenter and rack. What is read from one of them agrees with
what is read from the others, and does not depend on the order in which the nodes were listed.

* `Directory.ofList_fails_iff`: which nodes no directory can be made of.
* `Directory.Indexes`: what a directory of these nodes answers; `Directory.indexes_nodes`: every
  directory answers so for its own nodes.
* `Directory.indexes_agree`: both together, for nodes in any order.
-/

namespace ReplicaRing

/-- The nodes cannot both be registered. -/
def Node.Collides (m n : Node) : Prop := m.id = n.id ∨ m.endpoint = n.endpoint

instance (m n : Node) : Decidable (m.Collides n) :=
  inferInstanceAs (Decidable (m.id = n.id ∨ m.endpoint = n.endpoint))

namespace Directory

/-- What a directory of these nodes answers. -/
structure Indexes (d : Directory) (S : Set Node) : Prop where
  nodes : Enumerates Node.id d.nodes S
  node? (id : NodeId) (n : Node) : d.node? id = some n ↔ n ∈ S ∧ n.id = id
  /-- Identities and endpoints are looked up by each other. -/
  idAt? (e : Endpoint) (id : NodeId) : d.idAt? e = some id ↔ d.endpointOf? id = some e
  endpointOf? (id : NodeId) (e : Endpoint) :
    d.endpointOf? id = some e ↔ ∃ n ∈ S, n.id = id ∧ n.endpoint = e
  /-- The location at an endpoint is that of the node there. -/
  locationAt? (e : Endpoint) (l : Location) :
    d.locationAt? e = some l ↔ ∃ id, d.idAt? e = some id ∧ d.locationOf? id = some l
  locationOf? (id : NodeId) (l : Location) :
    d.locationOf? id = some l ↔ ∃ n ∈ S, n.id = id ∧ n.location = l
  datacenters : Enumerates id d.datacenters {dc | ∃ n ∈ S, n.datacenter = dc}
  endpointsIn (dc : String) :
    Enumerates id (d.endpointsIn dc) {e | ∃ n ∈ S, n.datacenter = dc ∧ n.endpoint = e}
  /-- Both indexes by datacenter are about the same ones. -/
  keys_datacenterRacks : d.datacenterRacks.keys = d.datacenters
  racksIn (dc : String) :
    Enumerates id (d.racksIn dc).keys {rack | ∃ n ∈ S, n.location = ⟨dc, rack⟩}
  /-- What is listed for a rack. -/
  rack (dc rack : String) (es : List Endpoint) : (d.racksIn dc).get? rack = some es →
    es ≠ [] ∧ Enumerates id es {e | ∃ n ∈ S, n.location = ⟨dc, rack⟩ ∧ n.endpoint = e}
  /-- The racks of a datacenter share no endpoint, and have all that it has. -/
  racks_disjoint (dc : String) : (d.racksIn dc).values.Pairwise List.Disjoint
  racks_cover (dc : String) (e : Endpoint) :
    e ∈ d.endpointsIn dc ↔ ∃ es ∈ (d.racksIn dc).values, e ∈ es
  rackCount (dc : String) : d.rackCount dc = {rack | ∃ n ∈ S, n.location = ⟨dc, rack⟩}.ncard
  unknown (dc : String) : (∀ n ∈ S, n.datacenter ≠ dc) →
    d.endpointsIn dc = [] ∧ d.racksIn dc = ∅ ∧ d.rackCount dc = 0
  /-- Each node is counted in one datacenter. -/
  sum_endpointsIn : (d.datacenters.map fun dc => (d.endpointsIn dc).length).sum = d.size

/-! ## Which nodes fit in -/

/-- **Nodes are refused** iff two of them collide. -/
theorem ofList_fails_iff {ns : List Node} : (∃ error, ofList ns = .error error) ↔
    ∃ (i j : Nat) (m n : Node), i < j ∧ ns[i]? = some m ∧ ns[j]? = some n ∧ m.Collides n := by
  have hfit : (∃ d, ofList ns = .ok d) ↔
      (ns.map Node.endpoint).Nodup ∧ (ns.map Node.id).Nodup := by
    constructor
    · rintro ⟨d, hd⟩
      obtain ⟨he, hi, -⟩ := ofList_eq_ok_iff.1 hd
      exact ⟨he, hi⟩
    · rintro ⟨he, hi⟩
      obtain ⟨d, hd, -⟩ := ofList_of_nodup he hi
      exact ⟨d, hd⟩
  have hfail : (∃ error, ofList ns = .error error) ↔ ¬∃ d, ofList ns = .ok d := by
    cases ofList ns <;> simp
  rw [hfail, hfit, not_and_or, not_nodup_map_iff, not_nodup_map_iff]
  constructor
  · rintro (⟨i, j, m, n, hij, hm, hn, he⟩ | ⟨i, j, m, n, hij, hm, hn, hid⟩)
    · exact ⟨i, j, m, n, hij, hm, hn, .inr he⟩
    · exact ⟨i, j, m, n, hij, hm, hn, .inl hid⟩
  · rintro ⟨i, j, m, n, hij, hm, hn, hid | he⟩
    · exact .inr ⟨i, j, m, n, hij, hm, hn, hid⟩
    · exact .inl ⟨i, j, m, n, hij, hm, hn, he⟩

/-! ## Racks -/

section
variable {d : Directory} {dc : String}

theorem mem_values_racksIn {es : List Endpoint} : es ∈ (d.racksIn dc).values ↔
    es ≠ [] ∧ ∃ rack, es = d.endpointsAt ⟨dc, rack⟩ := by
  rw [OrderedMap.values, List.mem_map]
  constructor
  · rintro ⟨⟨rack, es⟩, hmem, rfl⟩
    obtain ⟨hne, hes⟩ := get?_racksIn.1 (OrderedMap.mem_toList_iff.1 hmem)
    exact ⟨hne, rack, hes⟩
  · rintro ⟨hne, rack, hes⟩
    exact ⟨(rack, es), OrderedMap.mem_toList_iff.2 (get?_racksIn.2 ⟨hne, hes⟩), rfl⟩

/-- An endpoint stands at one location. -/
theorem disjoint_endpointsAt {l l' : Location} (h : l ≠ l') :
    (d.endpointsAt l).Disjoint (d.endpointsAt l') := by
  intro e he he'
  obtain ⟨m, hm, rfl, rfl⟩ := mem_endpointsAt.1 he
  obtain ⟨n, hn, rfl, hend⟩ := mem_endpointsAt.1 he'
  exact h (by rw [eq_of_endpoint_eq hm hn hend.symm])

theorem disjoint_racksIn : (d.racksIn dc).values.Pairwise List.Disjoint := by
  rw [OrderedMap.values, List.pairwise_map]
  refine (d.racksIn dc).ascending.imp_of_mem fun {a b} ha hb hlt => ?_
  obtain ⟨-, hes⟩ := get?_racksIn.1 (OrderedMap.mem_toList_iff.1 ha)
  obtain ⟨-, hes'⟩ := get?_racksIn.1 (OrderedMap.mem_toList_iff.1 hb)
  rw [hes, hes']
  refine disjoint_endpointsAt fun h => ?_
  have hrack : a.1 = b.1 := (Location.mk.inj h).2
  rw [hrack] at hlt
  exact Std.lt_irrefl hlt

theorem mem_endpointsIn_iff_rack {e : Endpoint} :
    e ∈ d.endpointsIn dc ↔ ∃ es ∈ (d.racksIn dc).values, e ∈ es := by
  simp only [mem_values_racksIn]
  constructor
  · intro he
    obtain ⟨n, hn, rfl, rfl⟩ := mem_endpointsIn.1 he
    have hat : n.endpoint ∈ d.endpointsAt n.location := mem_endpointsAt.2 ⟨n, hn, rfl, rfl⟩
    exact ⟨_, ⟨List.ne_nil_of_mem hat, n.rack, rfl⟩, hat⟩
  · rintro ⟨_, ⟨-, rack, rfl⟩, he⟩
    obtain ⟨n, hn, hl, rfl⟩ := mem_endpointsAt.1 he
    exact mem_endpointsIn.2 ⟨n, hn, congrArg Location.datacenter hl, rfl⟩

theorem enumerates_keys_racksIn :
    Enumerates id (d.racksIn dc).keys {rack | ∃ n ∈ d.nodes, n.location = ⟨dc, rack⟩} :=
  ⟨(d.racksIn dc).ascending_keys, fun _ => mem_keys_racksIn⟩

theorem keys_datacenterRacks (d : Directory) : d.datacenterRacks.keys = d.datacenters := by
  refine d.datacenterRacks.ascending_keys.eq_of_mem_iff ascending_datacenters fun dc => ?_
  rw [OrderedMap.mem_keys_iff_getIn? d.datacenterRacks_ne_empty, mem_datacenters]
  simp only [d.datacenterRacks_getIn?, exists_eq_right, Registry.endpointsWhere_ne_nil_iff,
    decide_eq_true_eq, Node.location_eq_iff]
  constructor
  · rintro ⟨rack, n, hn, hdc, -⟩
    exact ⟨n, hn, hdc⟩
  · rintro ⟨n, hn, hdc⟩
    exact ⟨n.rack, n, hn, hdc, rfl⟩

theorem endpointsIn_eq_nil (h : ∀ n ∈ d.nodes, n.datacenter ≠ dc) : d.endpointsIn dc = [] := by
  refine List.eq_nil_iff_forall_not_mem.2 fun e he => ?_
  obtain ⟨n, hn, hdc, -⟩ := mem_endpointsIn.1 he
  exact h n hn hdc

theorem racksIn_eq_empty (h : ∀ n ∈ d.nodes, n.datacenter ≠ dc) : d.racksIn dc = ∅ := by
  refine OrderedMap.ext_get? fun rack => Option.eq_none_iff_forall_ne_some.2 fun es hes => ?_
  have hrack : rack ∈ (d.racksIn dc).keys := OrderedMap.mem_keys_iff.2 (by rw [hes]; rfl)
  obtain ⟨n, hn, hl⟩ := mem_keys_racksIn.1 hrack
  exact h n hn (congrArg Location.datacenter hl)

theorem sum_length_endpointsIn (d : Directory) :
    (d.datacenters.map fun dc => (d.endpointsIn dc).length).sum = d.size := by
  have hnodup : d.datacenters.Nodup := ascending_datacenters.nodup.of_map
  have hnamed : ∀ n ∈ d.nodes, n.datacenter ∈ d.datacenters := fun n hn =>
    mem_datacenters.2 ⟨n, hn, rfl⟩
  rw [size, Placement.length_eq_sum_filter hnodup hnamed]
  simp only [length_endpointsIn]

end

/-! ## Answers -/

theorem idAt?_eq_some_iff {d : Directory} {e : Endpoint} {id : NodeId} :
    d.idAt? e = some id ↔ ∃ n ∈ d.nodes, n.endpoint = e ∧ n.id = id :=
  d.peers_get? e id

theorem endpointOf?_eq_some_iff {d : Directory} {id : NodeId} {e : Endpoint} :
    d.endpointOf? id = some e ↔ ∃ n ∈ d.nodes, n.id = id ∧ n.endpoint = e := by
  simp only [endpointOf?, Option.map_eq_some_iff, Registry.node?_eq_some_iff, and_assoc]

theorem locationOf?_eq_some_iff {d : Directory} {id : NodeId} {l : Location} :
    d.locationOf? id = some l ↔ ∃ n ∈ d.nodes, n.id = id ∧ n.location = l := by
  simp only [locationOf?, Option.map_eq_some_iff, Registry.node?_eq_some_iff, and_assoc]

/-- A directory answers for its own nodes. -/
theorem indexes_nodes (d : Directory) : d.Indexes {n | n ∈ d.nodes} where
  nodes := ⟨d.ascending, fun _ => Iff.rfl⟩
  node? _ _ := Registry.node?_eq_some_iff
  idAt? e id := by
    rw [idAt?_eq_some_iff, endpointOf?_eq_some_iff]
    simp only [and_comm (a := _ = e)]
  endpointOf? _ _ := endpointOf?_eq_some_iff
  locationAt? _ _ := Option.bind_eq_some_iff
  locationOf? _ _ := locationOf?_eq_some_iff
  datacenters := ⟨ascending_datacenters, fun _ => mem_datacenters⟩
  endpointsIn _ := ⟨ascending_endpointsIn, fun _ => mem_endpointsIn⟩
  keys_datacenterRacks := d.keys_datacenterRacks
  racksIn _ := enumerates_keys_racksIn
  rack dc rack es h := by
    obtain ⟨hne, rfl⟩ := get?_racksIn.1 h
    exact ⟨hne, ascending_endpointsAt, fun _ => mem_endpointsAt⟩
  racks_disjoint _ := disjoint_racksIn
  racks_cover _ _ := mem_endpointsIn_iff_rack
  rackCount dc := by
    rw [← length_keys_racksIn]
    exact enumerates_keys_racksIn.length_eq
  unknown dc h := by
    have hracks := racksIn_eq_empty h
    exact ⟨endpointsIn_eq_nil h, hracks, congrArg OrderedMap.size hracks⟩
  sum_endpointsIn := d.sum_length_endpointsIn

/-- **The indexes agree.** Nodes are refused iff two of them collide. Otherwise the directory
answers for these nodes, in all its indexes, and it is the same in whatever order they are
listed. -/
theorem indexes_agree (ns : List Node) :
    ((∃ error, ofList ns = .error error) ↔
      ∃ (i j : Nat) (m n : Node), i < j ∧ ns[i]? = some m ∧ ns[j]? = some n ∧ m.Collides n) ∧
    ∀ d, ofList ns = .ok d → d.Indexes {n | n ∈ ns} ∧ d.size = ns.length ∧
      ∀ ns', ns'.Perm ns → ofList ns' = .ok d := by
  refine ⟨ofList_fails_iff, fun d h => ?_⟩
  have hp : d.nodes.Perm ns := nodes_of_ofList h
  have hset : {n | n ∈ ns} = {n | n ∈ d.nodes} := Set.ext fun n => hp.mem_iff.symm
  refine ⟨?_, hp.length_eq, fun ns' hp' => ?_⟩
  · rw [hset]
    exact d.indexes_nodes
  · rw [← toOption_eq_some_iff, ofList_perm hp', toOption_eq_some_iff]
    exact h

/-- One rack name in two datacenters, listed against the order of identities; with a fifth node at a
taken endpoint there is no directory. -/
theorem indexes_agree_fourNodes :
    let n1 := Snapshot.numbered 1 "west" "a"
    let n2 := Snapshot.numbered 2 "west" "b"
    let n3 := Snapshot.numbered 3 "west" "a"
    let n4 := Snapshot.numbered 4 "east" "a"
    let double : Node := { n2 with id := 5 }
    ∃ d, ofList [n4, n3, n2, n1] = .ok d ∧ ofList [n1, n3, n2, n4] = .ok d ∧
      d.Indexes {n | n ∈ [n4, n3, n2, n1]} ∧
      (d.racksIn "west").get? "a" = some [n1.endpoint, n3.endpoint] ∧
      d.rackCount "north" = 0 ∧ ∃ error, ofList [n4, n3, n2, n1, double] = .error error := by
  intro n1 n2 n3 n4 double
  obtain ⟨d, hd⟩ : ∃ d, ofList [n4, n3, n2, n1] = .ok d := isOk_iff.1 (by decide)
  obtain ⟨hindexes, -, hperm⟩ := (indexes_agree [n4, n3, n2, n1]).2 d hd
  have hnodes : d.nodes = [n1, n2, n3, n4] := (ofList_eq_ok_iff.1 hd).2.2.trans (by decide)
  refine ⟨d, hd, hperm _ (by decide), hindexes, ?_, ?_, ?_⟩
  · rw [get?_racksIn]
    simp only [Registry.endpointsWhere, hnodes]
    decide
  · have hnorth : ∀ n ∈ [n4, n3, n2, n1], n.datacenter ≠ "north" := by decide
    exact (hindexes.unknown "north" hnorth).2.2
  · exact (indexes_agree _).1.2 ⟨2, 4, n2, double, by decide, rfl, rfl, .inr rfl⟩

end Directory

end ReplicaRing
