import ReplicaRing.Proofs.Shares

/-!
# Datacenters do not influence each other

What a placement spread over racks gives to a datacenter is decided by the nodes of that
datacenter, their tokens and its quota alone. All datacenters share one walk of the ring; but a
walk passes over the owners that are of no interest, so the nodes of one datacenter are met as if
the ring held their tokens only.

* `TokenRing.restrict`, `Snapshot.walkIn_eq`: the walk through one datacenter is the walk on the
  ring of its tokens.
* `Snapshot.SameIn`: two snapshots with the same datacenter have the same ring of its tokens
  (`SameIn.ringIn`), hence the same walk through it (`SameIn.walkIn`).
* `Placement.share_isolated`: so they give it the same replicas.
-/

namespace ReplicaRing

variable {T : Type} [Token T]

/-! ## The ring of some owners -/

/-- The ring without the tokens of the other owners. -/
def TokenRing.restrict (r : TokenRing T) (keep : NodeId → Bool) : TokenRing T where
  vnodes := r.vnodes.filter fun v => keep v.node
  ascending := r.ascending.sublist List.filter_sublist

theorem TokenRing.eq_of_mem_iff {r r' : TokenRing T} (h : ∀ v, v ∈ r.vnodes ↔ v ∈ r'.vnodes) :
    r = r' := by
  have hv := r.ascending.eq_of_mem_iff r'.ascending h
  cases r
  cases r'
  cases hv
  rfl

namespace Directory

/-- Whether the identity is that of a node in the datacenter. -/
def isIn (d : Directory) (dc : String) (id : NodeId) : Bool :=
  (d.node? id).any fun n => decide (n.datacenter = dc)

theorem isIn_iff {d : Directory} {dc : String} {id : NodeId} :
    d.isIn dc id = true ↔ ∃ n, n.datacenter = dc ∧ n ∈ d.nodes ∧ n.id = id := by
  simp only [isIn, Option.any_eq_true, decide_eq_true_eq, Registry.node?_eq_some_iff]
  exact exists_congr fun n => and_comm

end Directory

namespace Snapshot

/-- The ring of the tokens that nodes of a datacenter own. -/
def ringIn (s : Snapshot T) (dc : String) : TokenRing T := s.ring.restrict (s.directory.isIn dc)

theorem mem_ringIn {s : Snapshot T} {dc : String} {v : VirtualNode T} :
    v ∈ (s.ringIn dc).vnodes ↔ ∃ n, n.datacenter = dc ∧ n ∈ s.directory.nodes ∧
      n.id = v.node ∧ v.token ∈ s.ring.tokensOf n.id := by
  simp only [ringIn, TokenRing.restrict, List.mem_filter, Directory.isIn_iff,
    TokenRing.mem_tokensOf]
  constructor
  · rintro ⟨hv, n, hdc, hn, hid⟩
    exact ⟨n, hdc, hn, hid, hid ▸ hv⟩
  · rintro ⟨n, hdc, hn, hid, hv⟩
    rw [hid] at hv
    exact ⟨hv, n, hdc, hn, hid⟩

/-- **The walk through a datacenter is the walk on the ring of its tokens.** -/
theorem walkIn_eq (s : Snapshot T) (t : T) (dc : String) :
    s.walkIn t dc = ((s.ringIn dc).walk t).toList.filterMap s.directory.node? := by
  have hwalk : ((s.ringIn dc).walk t).toList =
      (s.ring.walk t).toList.filter (s.directory.isIn dc) :=
    TokenRing.toList_walk_filter rfl t
  rw [hwalk, walkIn, nodesFrom, List.filter_filterMap, List.filterMap_filter]
  refine List.filterMap_congr fun id _ => ?_
  unfold Directory.isIn
  cases s.directory.node? id with
  | none => rfl
  | some n => simp [Option.filter_some]

/-! ## The same datacenter in two snapshots -/

/-- The snapshots have the same nodes in a datacenter, which own the same tokens. -/
structure SameIn (s s' : Snapshot T) (dc : String) : Prop where
  nodes : ∀ n, n.datacenter = dc → (n ∈ s.directory.nodes ↔ n ∈ s'.directory.nodes)
  tokens : ∀ n ∈ s.directory.nodes, n.datacenter = dc →
    ∀ t, t ∈ s.ring.tokensOf n.id ↔ t ∈ s'.ring.tokensOf n.id

namespace SameIn

variable {s s' : Snapshot T} {dc : String} (h : s.SameIn s' dc)
include h

theorem ringIn : s.ringIn dc = s'.ringIn dc := by
  refine TokenRing.eq_of_mem_iff fun v => ?_
  rw [mem_ringIn, mem_ringIn]
  refine exists_congr fun n => and_congr_right fun hdc => ?_
  rw [← h.nodes n hdc]
  exact and_congr_right fun hn => and_congr_right fun _ => h.tokens n hn hdc v.token

theorem walkIn (t : T) : s.walkIn t dc = s'.walkIn t dc := by
  rw [walkIn_eq, walkIn_eq, ← h.ringIn]
  refine List.filterMap_congr fun id hid => ?_
  -- whoever is met owns a token of the datacenter, so it is the same node in both
  obtain ⟨v, hv, rfl⟩ := TokenRing.mem_nodes.1 (TokenRing.mem_toList_walk.1 hid)
  obtain ⟨n, hdc, hn, hid, -⟩ := mem_ringIn.1 hv
  have hn' := (h.nodes n hdc).1 hn
  rw [← hid, Directory.node?_of_mem hn, Directory.node?_of_mem hn']

end SameIn

/-- The sample cluster with other nodes in the east, before, between and behind those in the
west. -/
def fourNodesAndEast : Snapshot LongToken where
  epoch := Epoch.zero.next.next
  ring := ⟨[⟨⟨5⟩, 6⟩, ⟨⟨10⟩, 1⟩, ⟨⟨20⟩, 2⟩, ⟨⟨25⟩, 5⟩, ⟨⟨40⟩, 3⟩, ⟨⟨47⟩, 6⟩, ⟨⟨50⟩, 1⟩, ⟨⟨60⟩, 5⟩],
    by decide⟩
  directory := (Directory.ofList [numbered 1 "west" "a", numbered 2 "west" "a",
    numbered 3 "west" "b", numbered 5 "east" "a", numbered 6 "east" "b"]).toOption.get (by decide)
  registered := by decide
  owning := by decide

end Snapshot

namespace Placement

/-- **Datacenters do not influence each other.** Whatever else differs in two snapshots, and
whatever the quotas of other datacenters, the share of a datacenter is the same. -/
theorem share_isolated {s s' : Snapshot T} {dc : String} (h : s.SameIn s' dc) {q q' : Quotas}
    (hq : q.factorFor dc = q'.factorFor dc) (t : T) :
    ((rackAware q s t).within s.directory dc).map Replica.grade =
      ((rackAware q' s' t).within s'.directory dc).map Replica.grade := by
  rw [grade_within, grade_within, placedIn, placedIn, h.walkIn t, hq]

/-- Three replicas in the east instead of one change nothing in the west. -/
theorem share_isolated_fourNodes :
    let s := Snapshot.fourNodes
    let s' := Snapshot.fourNodesAndEast
    let q' : Quotas := .ofList [("west", ⟨2, 1, by decide⟩), ("east", .ofFull 3)]
    let n1 := Snapshot.numbered 1 "west" "a"
    let n3 := Snapshot.numbered 3 "west" "b"
    let n2 := Snapshot.numbered 2 "west" "a"
    let t : LongToken := ⟨45⟩
    s.SameIn s' "west" ∧ fourNodesQuotas.factorFor "west" = q'.factorFor "west" ∧
      ((rackAware q' s' t).within s'.directory "west").map Replica.grade =
        [(n1.endpoint, false), (n3.endpoint, false), (n2.endpoint, true)] := by
  intro s s' q' n1 n3 n2 t
  have hnodes : ∀ n ∈ s.directory.nodes, n.datacenter = "west" → n ∈ s'.directory.nodes := by decide
  have hnodes' : ∀ n ∈ s'.directory.nodes, n.datacenter = "west" → n ∈ s.directory.nodes := by
    decide
  have htokens : ∀ n ∈ s.directory.nodes, n.datacenter = "west" →
      s.ring.tokensOf n.id = s'.ring.tokensOf n.id := by decide
  have hsame : s.SameIn s' "west" :=
    ⟨fun n hdc => ⟨fun hn => hnodes n hn hdc, fun hn => hnodes' n hn hdc⟩,
      fun n hn hdc t => by rw [htokens n hn hdc]⟩
  have hq : fourNodesQuotas.factorFor "west" = q'.factorFor "west" := by decide
  exact ⟨hsame, hq, (share_isolated hsame hq t).symm.trans (by decide)⟩

end Placement

end ReplicaRing
