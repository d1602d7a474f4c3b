import Mathlib.Data.Set.Card
import ReplicaRing.Proofs.Acceptance
import ReplicaRing.Proofs.Members

/-!
# The roster of a snapshot

A snapshot says of each member its endpoint, its location and its tokens. That is all it says: the
ring's entries, the number of members, and the endpoints and racks of the datacenters are read off
this roster, and there is no trace in them of members or locations that are not on it.

* `Snapshot.roster` is that map, and `Snapshot.Shows` says what a snapshot answers for a roster.
* `Snapshot.shows_roster`: every snapshot shows its own roster.
* `Snapshot.eq_of_roster_eq`: snapshots of one epoch with the same roster are equal.
-/

namespace ReplicaRing

/-! ## Sets in ascending order -/

section
variable {α K : Type} [LT K] {key : α → K} {xs ys : List α} {S : Set α}

/-- The list has the members of the set, in ascending order of their keys. -/
structure Enumerates (key : α → K) (xs : List α) (S : Set α) : Prop where
  ascending : Ascending key xs
  mem (x : α) : x ∈ xs ↔ x ∈ S

namespace Enumerates

theorem ne_nil_iff (h : Enumerates key xs S) : xs ≠ [] ↔ S.Nonempty := by
  rw [ne_eq, List.eq_nil_iff_forall_not_mem, Set.Nonempty]
  simp [h.mem]

variable [LE K] [Std.IsLinearOrder K] [Std.LawfulOrderLT K]

/-- A set is enumerated in one way. -/
theorem eq (hx : Enumerates key xs S) (hy : Enumerates key ys S) : xs = ys :=
  hx.ascending.eq_of_mem_iff hy.ascending fun x => (hx.mem x).trans (hy.mem x).symm

theorem length_eq (h : Enumerates key xs S) : xs.length = S.ncard := by
  classical
  have hS : S = ↑xs.toFinset := by
    ext x
    simp [h.mem]
  rw [hS, Set.ncard_coe_finset, List.toFinset_card_of_nodup h.ascending.nodup.of_map]

end Enumerates

end

/-! ## Rosters -/

/-- What is known of one member of a cluster. -/
structure Member (T : Type) where
  endpoint : Endpoint
  location : Location
  tokens : Finset T

/-- The members of a cluster by their identities. -/
abbrev Roster (T : Type) := NodeId → Option (Member T)

namespace Roster

variable {T : Type} (m : Roster T)

def members : Set NodeId := {i | (m i).isSome}

/-- The members as they are registered. -/
def nodes : Set Node := {n | ∃ x, m n.id = some x ∧ x.endpoint = n.endpoint ∧
  x.location = n.location}

/-- The member owns the token. -/
def Owns (i : NodeId) (t : T) : Prop := ∃ x, m i = some x ∧ t ∈ x.tokens

/-- The endpoints of the members in a datacenter. -/
def endpointsIn (dc : String) : Set Endpoint :=
  {e | ∃ i x, m i = some x ∧ x.location.datacenter = dc ∧ x.endpoint = e}

/-- The endpoints of the members at a location. -/
def endpointsAt (location : Location) : Set Endpoint :=
  {e | ∃ i x, m i = some x ∧ x.location = location ∧ x.endpoint = e}

def datacenters : Set String := {dc | (m.endpointsIn dc).Nonempty}

def racksIn (dc : String) : Set String := {rack | (m.endpointsAt ⟨dc, rack⟩).Nonempty}

end Roster

namespace Snapshot

variable {T : Type} [Token T]

/-- What a snapshot says of its members. -/
def roster (s : Snapshot T) : Roster T := fun i =>
  (s.directory.node? i).map fun n => ⟨n.endpoint, n.location, (s.ring.tokensOf i).toFinset⟩

/-- The snapshot answers everything as it stands in the roster. -/
structure Shows (s : Snapshot T) (m : Roster T) : Prop where
  roster : s.roster = m
  vnodes : Enumerates VirtualNode.token s.ring.vnodes {v | m.Owns v.node v.token}
  tokensOf (i : NodeId) : Enumerates id (s.ring.tokensOf i) {t | m.Owns i t}
  ownerOf? (t : T) (i : NodeId) : s.ring.ownerOf? t = some i ↔ m.Owns i t
  nodeCount : s.ring.nodeCount = m.members.ncard
  nodes : Enumerates Node.id s.directory.nodes m.nodes
  idAt? (e : Endpoint) (i : NodeId) :
    s.directory.idAt? e = some i ↔ ∃ x, m i = some x ∧ x.endpoint = e
  datacenters : Enumerates id s.directory.datacenters m.datacenters
  endpointsIn (dc : String) : Enumerates id (s.directory.endpointsIn dc) (m.endpointsIn dc)
  racksIn (dc rack : String) (es : List Endpoint) :
    (s.directory.racksIn dc).get? rack = some es ↔
      es ≠ [] ∧ Enumerates id es (m.endpointsAt ⟨dc, rack⟩)
  rackCount (dc : String) : s.directory.rackCount dc = (m.racksIn dc).ncard

/-! ## What a snapshot answers -/

section
variable {s : Snapshot T} {i : NodeId}

theorem roster_eq_some_iff {x : Member T} : s.roster i = some x ↔ ∃ n ∈ s.directory.nodes,
    n.id = i ∧ ⟨n.endpoint, n.location, (s.ring.tokensOf i).toFinset⟩ = x := by
  simp only [roster, Option.map_eq_some_iff, Registry.node?_eq_some_iff, and_assoc]

theorem mem_members_roster : i ∈ s.roster.members ↔ ∃ n ∈ s.directory.nodes, n.id = i := by
  simp [Roster.members, roster, Option.isSome_iff_exists, Registry.node?_eq_some_iff]

theorem mem_nodes_roster {n : Node} : n ∈ s.roster.nodes ↔ n ∈ s.directory.nodes := by
  simp only [Roster.nodes, Set.mem_ofPred_eq, roster_eq_some_iff]
  constructor
  · rintro ⟨_, ⟨m, hm, hi, rfl⟩, he, hl⟩
    cases m
    cases n
    cases hi
    cases he
    cases hl
    exact hm
  · intro hn
    exact ⟨_, ⟨n, hn, rfl, rfl⟩, rfl, rfl⟩

/-- The members of the roster are the registered nodes. -/
theorem exists_roster_iff (p : Endpoint → Location → Prop) :
    (∃ i x, s.roster i = some x ∧ p x.endpoint x.location) ↔
      ∃ n ∈ s.directory.nodes, p n.endpoint n.location := by
  constructor
  · rintro ⟨i, x, hx, hp⟩
    obtain ⟨n, hn, -, rfl⟩ := roster_eq_some_iff.1 hx
    exact ⟨n, hn, hp⟩
  · rintro ⟨n, hn, hp⟩
    exact ⟨n.id, _, roster_eq_some_iff.2 ⟨n, hn, rfl, rfl⟩, hp⟩

theorem owns_roster_iff {t : T} : s.roster.Owns i t ↔ ⟨t, i⟩ ∈ s.ring.vnodes := by
  constructor
  · rintro ⟨x, hx, ht⟩
    obtain ⟨n, -, -, rfl⟩ := roster_eq_some_iff.1 hx
    exact TokenRing.mem_tokensOf.1 (List.mem_toFinset.1 ht)
  · intro ht
    -- whoever owns a token is registered
    obtain ⟨n, hn⟩ := Option.isSome_iff_exists.1
      (s.registered i (TokenRing.mem_nodes.2 ⟨_, ht, rfl⟩))
    obtain ⟨hn, hi⟩ := Registry.node?_eq_some_iff.1 hn
    exact ⟨_, roster_eq_some_iff.2 ⟨n, hn, hi, rfl⟩,
      List.mem_toFinset.2 (TokenRing.mem_tokensOf.2 ht)⟩

theorem mem_endpointsIn_roster {dc : String} {e : Endpoint} :
    e ∈ s.roster.endpointsIn dc ↔ ∃ n ∈ s.directory.nodes, n.datacenter = dc ∧ n.endpoint = e :=
  exists_roster_iff fun endpoint location => location.datacenter = dc ∧ endpoint = e

theorem mem_endpointsAt_roster {location : Location} {e : Endpoint} :
    e ∈ s.roster.endpointsAt location ↔
      ∃ n ∈ s.directory.nodes, n.location = location ∧ n.endpoint = e :=
  exists_roster_iff fun endpoint location' => location' = location ∧ endpoint = e

end

end Snapshot

/-! ### The ring -/

namespace TokenRing

variable {T : Type} [Token T] (r : TokenRing T)

theorem ascending_tokensOf (i : NodeId) : Ascending id (r.tokensOf i) :=
  List.pairwise_map.2 (r.ascending.sublist List.filter_sublist)

theorem length_nodes : r.nodes.length = r.nodeCount := by
  have hn : r.nodes.Nodup := (ascendingSet_ascending r.owners).nodup.of_map
  refine List.Perm.length_eq ((List.perm_ext_iff_of_nodup hn (nodup_eraseDups _)).2 fun i => ?_)
  rw [nodes, mem_ascendingSet, List.mem_eraseDups]

end TokenRing

/-! ### The directory -/

namespace Directory

variable {d : Directory} {dc rack : String} {location : Location}

/-- The endpoints at a location, in ascending order. -/
def endpointsAt (d : Directory) (location : Location) : List Endpoint :=
  d.endpointsWhere fun n => decide (n.location = location)

theorem mem_endpointsAt {e : Endpoint} : e ∈ d.endpointsAt location ↔
    ∃ n ∈ d.nodes, n.location = location ∧ n.endpoint = e := by
  simp [endpointsAt, Registry.mem_endpointsWhere]

theorem ascending_endpointsAt : Ascending id (d.endpointsAt location) :=
  d.ascending_endpointsWhere _

theorem length_keys_racksIn : (d.racksIn dc).keys.length = d.rackCount dc := List.length_map _

end Directory

/-! ### Snapshots -/

namespace Snapshot

variable {T : Type} [Token T]

theorem enumerates_endpointsAt (s : Snapshot T) (location : Location) :
    Enumerates id (s.directory.endpointsAt location) (s.roster.endpointsAt location) :=
  ⟨Directory.ascending_endpointsAt, fun _ =>
    Directory.mem_endpointsAt.trans mem_endpointsAt_roster.symm⟩

/-- **A snapshot shows its roster.** -/
theorem shows_roster (s : Snapshot T) : s.Shows s.roster where
  roster := rfl
  vnodes := ⟨s.ring.ascending, fun _ => owns_roster_iff.symm⟩
  tokensOf i := ⟨s.ring.ascending_tokensOf i, fun _ =>
    TokenRing.mem_tokensOf.trans owns_roster_iff.symm⟩
  ownerOf? _ _ := TokenRing.ownerOf?_eq_some_iff.trans owns_roster_iff.symm
  nodeCount := by
    have h : Enumerates id s.ring.nodes s.roster.members := by
      refine ⟨ascendingSet_ascending _, fun i => ?_⟩
      rw [mem_members_roster, TokenRing.mem_nodes]
      exact s.consistent_toDraft.owners i
    rw [← h.length_eq, s.ring.length_nodes]
  nodes := ⟨s.directory.ascending, fun _ => mem_nodes_roster.symm⟩
  idAt? e i := by
    rw [Directory.idAt?, s.directory.peers_get?]
    simp only [roster_eq_some_iff]
    constructor
    · rintro ⟨n, hn, he, hi⟩
      exact ⟨_, ⟨n, hn, hi, rfl⟩, he⟩
    · rintro ⟨_, ⟨n, hn, hi, rfl⟩, he⟩
      exact ⟨n, hn, he, hi⟩
  datacenters := by
    refine ⟨Directory.ascending_datacenters, fun dc => ?_⟩
    rw [Directory.mem_datacenters]
    simp [Roster.datacenters, Set.Nonempty, mem_endpointsIn_roster]
  endpointsIn dc := ⟨Directory.ascending_endpointsIn, fun _ =>
    Directory.mem_endpointsIn.trans mem_endpointsIn_roster.symm⟩
  racksIn dc rack es := by
    have h := s.enumerates_endpointsAt ⟨dc, rack⟩
    rw [Directory.get?_racksIn]
    change _ ∧ es = s.directory.endpointsAt ⟨dc, rack⟩ ↔ _
    refine and_congr_right fun _ => ⟨?_, fun hes => hes.eq h⟩
    rintro rfl
    exact h
  rackCount dc := by
    have h : Enumerates id (s.directory.racksIn dc).keys (s.roster.racksIn dc) := by
      refine ⟨(s.directory.racksIn dc).ascending_keys, fun rack => ?_⟩
      rw [OrderedMap.mem_keys_iff, Option.isSome_iff_exists]
      simp only [Directory.get?_racksIn, exists_eq_right]
      exact (s.enumerates_endpointsAt ⟨dc, rack⟩).ne_nil_iff
    rw [← h.length_eq, Directory.length_keys_racksIn]

/-- **Nothing but its epoch and its roster matters about a snapshot.** -/
theorem eq_of_roster_eq {s s' : Snapshot T} (hepoch : s.epoch = s'.epoch)
    (h : s.roster = s'.roster) : s = s' := by
  have hs := s.shows_roster
  have hs' := s'.shows_roster
  rw [← h] at hs'
  have hring : s.ring = s'.ring := TokenRing.ext_vnodes (hs.vnodes.eq hs'.vnodes)
  have hdirectory : s.directory = s'.directory := Directory.ext_nodes (hs.nodes.eq hs'.nodes)
  cases s
  cases s'
  cases hepoch
  cases hring
  cases hdirectory
  rfl

end Snapshot

end ReplicaRing
