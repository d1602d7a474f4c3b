import Mathlib.Data.List.Nodup
import ReplicaRing.Cluster.Draft

/-!
# Drafts that freeze

A draft whose tokens, identities and endpoints are each claimed once, and whose nodes are exactly
the owners of its tokens, freezes into a snapshot of the same nodes and virtual nodes.

* `Draft.Consistent` is that condition.
* `Draft.freeze_of_consistent`: it suffices, and what the snapshot holds.
* `Snapshot.consistent_toDraft`, `Draft.Consistent.remove`: the draft of a snapshot is consistent,
  and remains so when a node is dropped from it.
-/

namespace ReplicaRing

section
variable {α K : Type} [LE K] [LT K] [DecidableLT K] [Std.IsLinearOrder K] [Std.LawfulOrderLT K]

theorem sortOn_eq_of_ascending {key : α → K} {xs ys : List α} (h : Ascending key xs)
    (hm : ∀ x, x ∈ xs ↔ x ∈ ys) (hy : (ys.map key).Nodup) : xs = sortOn key ys :=
  h.eq_of_mem_iff (sortOn_ascending hy) fun x => by rw [hm, mem_sortOn]

theorem sortOn_of_ascending {key : α → K} {xs : List α} (h : Ascending key xs) :
    sortOn key xs = xs :=
  (sortOn_eq_of_ascending h (fun _ => Iff.rfl) h.nodup).symm

end

variable {T : Type} [Token T]

/-! ## Rings -/

theorem TokenClash.find?_eq_none {vs : List (VirtualNode T)}
    (h : Ascending VirtualNode.token vs) : TokenClash.find? vs = none := by
  induction vs with
  | nil => rfl
  | cons a vs ih =>
    obtain ⟨ha, hs⟩ := List.pairwise_cons.1 h
    cases vs with
    | nil => rfl
    | cons b vs =>
      have hab := ha b (.head _)
      rw [TokenClash.find?, if_neg, ih hs]
      intro e
      rw [e] at hab
      exact absurd hab (Std.lt_irrefl)

theorem TokenRing.ofList_of_nodup {vs : List (VirtualNode T)}
    (h : (vs.map VirtualNode.token).Nodup) :
    ∃ r : TokenRing T, ofList vs = .ok r ∧ r.vnodes = sortOn VirtualNode.token vs := by
  have hnone := TokenClash.find?_eq_none (sortOn_ascending h)
  unfold ofList
  split
  · rename_i hsome
    rw [hnone] at hsome
    cases hsome
  · exact ⟨_, rfl, rfl⟩

/-! ## Directories -/

namespace Registry

variable {r : Registry} {n : Node} {ns : List Node}

theorem register_of_new (he : n.endpoint ∉ r.nodes.map Node.endpoint)
    (hi : n.id ∉ r.nodes.map Node.id) :
    ∃ r', r.register n = .ok r' ∧ r'.nodes = insertOn Node.id n r.nodes := by
  have h1 : r.peers.get? n.endpoint = none := by
    refine peers_get?_eq_none_iff.2 fun m hm h => he ?_
    rw [← h]
    exact List.mem_map_of_mem hm
  have h2 : r.node? n.id = none := by
    refine List.find?_eq_none.2 fun m hm h => hi ?_
    rw [← of_decide_eq_true h]
    exact List.mem_map_of_mem hm
  unfold register
  split
  · rename_i h
    rw [h1] at h
    cases h
  · split
    · rename_i h
      rw [h2] at h
      cases h
    · exact ⟨_, rfl, rfl⟩

theorem foldlM_register (he : ((r.nodes ++ ns).map Node.endpoint).Nodup)
    (hi : ((r.nodes ++ ns).map Node.id).Nodup) :
    ∃ r', ns.foldlM register r = .ok r' ∧ r'.nodes.Perm (r.nodes ++ ns) := by
  induction ns generalizing r with
  | nil => exact ⟨r, rfl, by rw [List.append_nil]⟩
  | cons n ns ih =>
    have hp : (n :: (r.nodes ++ ns)).Perm (r.nodes ++ n :: ns) := List.perm_middle.symm
    have he' := List.nodup_cons.1 ((hp.map Node.endpoint).nodup_iff.2 he)
    have hi' := List.nodup_cons.1 ((hp.map Node.id).nodup_iff.2 hi)
    obtain ⟨r1, h1, hn1⟩ := register_of_new (r := r) (n := n)
      (fun h => he'.1 (by rw [List.map_append]; exact List.mem_append_left _ h))
      (fun h => hi'.1 (by rw [List.map_append]; exact List.mem_append_left _ h))
    have hp1 : (r1.nodes ++ ns).Perm (r.nodes ++ n :: ns) := by
      rw [hn1]
      exact ((insertOn_perm Node.id n r.nodes).append_right ns).trans hp
    obtain ⟨r2, h2, hp2⟩ := ih (r := r1) ((hp1.map _).nodup_iff.2 he) ((hp1.map _).nodup_iff.2 hi)
    refine ⟨r2, ?_, hp2.trans hp1⟩
    rw [List.foldlM_cons, h1]
    exact h2

end Registry

theorem Directory.ofList_of_nodup {ns : List Node} (he : (ns.map Node.endpoint).Nodup)
    (hi : (ns.map Node.id).Nodup) : ∃ d, ofList ns = .ok d ∧ d.nodes = sortOn Node.id ns := by
  obtain ⟨r, hr, hp⟩ := Registry.foldlM_register (r := .empty) he hi
  refine ⟨r.toDirectory, ?_, sortOn_eq_of_ascending r.ascending (fun n => hp.mem_iff) hi⟩
  rw [ofList, Registry.ofList, hr]
  rfl

/-! ## Drafts -/

theorem Snapshot.join_of_matching {ring : TokenRing T} {d : Directory} (e : Epoch)
    (hr : ∀ id ∈ ring.nodes, (d.node? id).isSome) (ho : ∀ n ∈ d.nodes, n.id ∈ ring.nodes) :
    Snapshot.join e ring d = .ok ⟨e, ring, d, hr, ho⟩ := by
  unfold join
  split
  · rename_i id h
    have h1 := hr id (List.mem_of_find?_eq_some h)
    have h2 := List.find?_some h
    rw [Option.isSome_iff_ne_none] at h1
    exact absurd (by simpa using h2) h1
  · split
    · rename_i n h
      have h2 := List.find?_some h
      exact absurd (ho n (List.mem_of_find?_eq_some h)) (of_decide_eq_true h2)
    · rfl

/-- Nothing is claimed twice, and the nodes are those that own tokens. -/
structure Draft.Consistent (d : Draft T) : Prop where
  tokens : (d.vnodes.map VirtualNode.token).Nodup
  endpoints : (d.nodes.map Node.endpoint).Nodup
  ids : (d.nodes.map Node.id).Nodup
  owners : ∀ id, (∃ v ∈ d.vnodes, v.node = id) ↔ ∃ n ∈ d.nodes, n.id = id

/-- **A consistent draft freezes** into a snapshot of what it holds. -/
theorem Draft.freeze_of_consistent {d : Draft T} (h : d.Consistent) (e : Epoch) :
    ∃ s, d.freeze e = .ok s ∧ s.epoch = e ∧
      s.ring.vnodes = sortOn VirtualNode.token d.vnodes ∧
      s.directory.nodes = sortOn Node.id d.nodes := by
  obtain ⟨ring, hring, hvnodes⟩ := TokenRing.ofList_of_nodup h.tokens
  obtain ⟨dir, hdir, hnodes⟩ := Directory.ofList_of_nodup h.endpoints h.ids
  have hmem : ∀ id, id ∈ ring.nodes ↔ ∃ n ∈ dir.nodes, n.id = id := fun id => by
    rw [TokenRing.mem_nodes, hvnodes, hnodes]
    simp only [mem_sortOn]
    exact h.owners id
  have hr : ∀ id ∈ ring.nodes, (dir.node? id).isSome := fun id hid => by
    obtain ⟨n, hn, hid⟩ := (hmem id).1 hid
    rw [Registry.node?_eq_some_iff.2 ⟨hn, hid⟩]
    rfl
  have ho : ∀ n ∈ dir.nodes, n.id ∈ ring.nodes := fun n hn => (hmem n.id).2 ⟨n, hn, rfl⟩
  refine ⟨⟨e, ring, dir, hr, ho⟩, ?_, rfl, hvnodes, hnodes⟩
  rw [freeze, hring, hdir]
  exact Snapshot.join_of_matching e hr ho

theorem Snapshot.consistent_toDraft (s : Snapshot T) : s.toDraft.Consistent where
  tokens := s.ring.ascending.nodup
  endpoints := s.directory.endpoints_nodup
  ids := s.directory.ascending.nodup
  owners id := by
    constructor
    · intro hv
      obtain ⟨n, hn⟩ := Option.isSome_iff_exists.1 (s.registered id (TokenRing.mem_nodes.2 hv))
      exact ⟨n, Registry.node?_eq_some_iff.1 hn⟩
    · rintro ⟨n, hn, rfl⟩
      exact TokenRing.mem_nodes.1 (s.owning n hn)

omit [Token T] in
theorem Draft.Consistent.remove {d : Draft T} (h : d.Consistent) (id : NodeId) :
    (d.remove id).Consistent where
  tokens := h.tokens.sublist (List.filter_sublist.map _)
  endpoints := h.endpoints.sublist (List.filter_sublist.map _)
  ids := h.ids.sublist (List.filter_sublist.map _)
  owners i := by
    have hi := h.owners i
    simp only [Draft.remove, List.mem_filter, decide_eq_true_eq]
    constructor
    · rintro ⟨v, ⟨hv, hne⟩, rfl⟩
      obtain ⟨n, hn, e⟩ := hi.1 ⟨v, hv, rfl⟩
      exact ⟨n, ⟨hn, e ▸ hne⟩, e⟩
    · rintro ⟨n, ⟨hn, hne⟩, rfl⟩
      obtain ⟨v, hv, e⟩ := hi.2 ⟨n, hn, rfl⟩
      exact ⟨v, ⟨hv, e ▸ hne⟩, e⟩

end ReplicaRing
