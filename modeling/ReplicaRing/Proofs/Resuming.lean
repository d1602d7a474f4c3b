import ReplicaRing.Proofs.Acceptance
import ReplicaRing.Proofs.Members
import ReplicaRing.Proofs.Reordering

/-!
# Resuming from a snapshot

A snapshot forgets the order in which its draft recorded nodes and virtual nodes. What is recorded
later does not depend on that order: not the virtual nodes that claim one token, which keep their
order; not the first collision among the nodes, as there is none among those of the snapshot; and
not the tokens that are derived for a new node, which only have to differ from those bound already.

* `Draft.Alike` relates the drafts that differ in nothing but that order.
* `Alike.apply`, `Alike.applyAll`: edits keep drafts alike; `Alike.freeze_eq`: alike drafts freeze
  into the same snapshot, or are refused for the same reason.
* `Draft.alike_of_freeze`: the draft of a snapshot is like the one that was frozen.
* `Draft.resume_from_snapshot`: edits can be resumed from a snapshot.
-/

namespace ReplicaRing

/-! ## Nodes with the same outset -/

/-- The lists begin with the same nodes, which do not collide but may be listed in another order;
after them the lists are equal. -/
def SameOutset (ns ns' : List Node) : Prop :=
  ∃ outset outset' later, ns = outset ++ later ∧ ns' = outset' ++ later ∧ outset.Perm outset' ∧
    (outset.map Node.endpoint).Nodup ∧ (outset.map Node.id).Nodup

namespace SameOutset

variable {ns ns' : List Node}

theorem append (h : SameOutset ns ns') (more : List Node) :
    SameOutset (ns ++ more) (ns' ++ more) := by
  obtain ⟨a, a', later, rfl, rfl, hp, he, hi⟩ := h
  exact ⟨a, a', later ++ more, List.append_assoc .., List.append_assoc .., hp, he, hi⟩

theorem filter (h : SameOutset ns ns') (p : Node → Bool) :
    SameOutset (ns.filter p) (ns'.filter p) := by
  obtain ⟨a, a', later, rfl, rfl, hp, he, hi⟩ := h
  exact ⟨a.filter p, a'.filter p, later.filter p, List.filter_append .., List.filter_append ..,
    hp.filter p, he.sublist (List.filter_sublist.map _), hi.sublist (List.filter_sublist.map _)⟩

theorem map (h : SameOutset ns ns') {f : Node → Node}
    (hendpoint : Node.endpoint ∘ f = Node.endpoint) (hid : Node.id ∘ f = Node.id) :
    SameOutset (ns.map f) (ns'.map f) := by
  obtain ⟨a, a', later, rfl, rfl, hp, he, hi⟩ := h
  refine ⟨a.map f, a'.map f, later.map f, List.map_append, List.map_append, hp.map f, ?_, ?_⟩
  · rwa [List.map_map, hendpoint]
  · rwa [List.map_map, hid]

/-- **Registration ends the same way**: the nodes of the outset all fit in, and whatever collides
later meets the same registry. -/
theorem ofList_eq (h : SameOutset ns ns') : Directory.ofList ns = Directory.ofList ns' := by
  obtain ⟨a, a', later, rfl, rfl, hp, he, hi⟩ := h
  obtain ⟨d, hd, hnodes⟩ := Directory.ofList_of_nodup he hi
  have hd' : Directory.ofList a' = .ok d := Directory.ofList_eq_ok_iff.2
    ⟨(hp.map _).nodup_iff.1 he, (hp.map _).nodup_iff.1 hi, hnodes.trans (sortOn_eq_of_perm hp hi)⟩
  obtain ⟨r, hr, rfl⟩ := map_eq_ok_iff.1 hd
  obtain ⟨r', hr', hsame⟩ := map_eq_ok_iff.1 hd'
  obtain rfl : r' = r := congrArg Directory.toRegistry hsame
  unfold Registry.ofList at hr hr'
  unfold Directory.ofList Registry.ofList
  rw [List.foldlM_append, List.foldlM_append, hr, hr']

end SameOutset

variable {T : Type} [Token T]

/-- A ring, or the clash that prevents it, comes of the virtual nodes as they are sorted. -/
theorem TokenRing.ofList_congr {vs vs' : List (VirtualNode T)}
    (h : sortOn VirtualNode.token vs = sortOn VirtualNode.token vs') : ofList vs = ofList vs' := by
  unfold ofList
  -- the ring carries a proof about the sorted list, which is rewritten with it
  generalize_proofs hascending
  revert hascending
  rw [h]
  exact fun _ => rfl

namespace Draft

/-! ## Drafts alike -/

/-- What the drafts record is the same, and so is its order among the claims to each token and
among the nodes that are registered after a common outset. -/
structure Alike (d d' : Draft T) : Prop where
  nodes : SameOutset d.nodes d'.nodes
  vnodes : SameByKey VirtualNode.token d.vnodes d'.vnodes

/-- What is taken counts by its members, in whatever order and however often they are listed. -/
theorem deriveTokens_congr (p : Partitioner T) (node : NodeId) (steps index count : Nat)
    {taken taken' : List T} (h : ∀ t, t ∈ taken ↔ t ∈ taken') :
    deriveTokens p node steps index count taken = deriveTokens p node steps index count taken' := by
  induction steps generalizing index count taken taken' with
  | zero => rfl
  | succ steps ih =>
    rw [deriveTokens, deriveTokens]
    simp only [h]
    split
    · rfl
    · split
      · exact ih _ _ h
      · exact congrArg _ (ih _ _ fun t => by rw [List.mem_cons, List.mem_cons, h])

namespace Alike

variable {d d' : Draft T}

theorem add (h : Alike d d') (node : Node) (tokens : List T) :
    Alike (d.add node tokens) (d'.add node tokens) :=
  ⟨h.nodes.append _, h.vnodes.append (.refl _ _)⟩

theorem addDerived (p : Partitioner T) (h : Alike d d') (node : Node) (count : Nat) :
    Alike (d.addDerived p node count) (d'.addDerived p node count) := by
  have htaken : ∀ t, t ∈ d.vnodes.map VirtualNode.token ↔ t ∈ d'.vnodes.map VirtualNode.token :=
    fun _ => (h.vnodes.perm.map _).mem_iff
  rw [Draft.addDerived, deriveTokens_congr p node.id _ _ _ htaken]
  exact h.add node _

theorem remove (h : Alike d d') (id : NodeId) : Alike (d.remove id) (d'.remove id) :=
  ⟨h.nodes.filter _, h.vnodes.filter _⟩

theorem move (h : Alike d d') (id : NodeId) (tokens : List T) :
    Alike (d.move id tokens) (d'.move id tokens) :=
  ⟨h.nodes, (h.vnodes.filter _).append (.refl _ _)⟩

theorem relocate (h : Alike d d') (id : NodeId) (location : Location) :
    Alike (d.relocate id location) (d'.relocate id location) := by
  refine ⟨h.nodes.map (funext fun n => ?_) (funext fun n => ?_), h.vnodes⟩ <;>
    rw [Function.comp_apply] <;> split <;> rfl

/-- **An edit keeps drafts alike.** -/
theorem apply (p : Partitioner T) (h : Alike d d') (e : Edit T) :
    Alike (d.apply p e) (d'.apply p e) := by
  cases e with
  | add node tokens => exact h.add node tokens
  | addDerived node count => exact h.addDerived p node count
  | remove id => exact h.remove id
  | move id tokens => exact h.move id tokens
  | relocate id location => exact h.relocate id location

theorem applyAll (p : Partitioner T) (h : Alike d d') (edits : List (Edit T)) :
    Alike (d.applyAll p edits) (d'.applyAll p edits) := by
  induction edits generalizing d d' with
  | nil => exact h
  | cons e edits ih => exact ih (h.apply p e)

/-- **Alike drafts freeze alike**, refusals included. -/
theorem freeze_eq (h : Alike d d') (e : Epoch) : d.freeze e = d'.freeze e := by
  unfold freeze
  rw [TokenRing.ofList_congr h.vnodes.sortOn_eq, h.nodes.ofList_eq]

end Alike

/-! ## Snapshots -/

theorem alike_of_freeze {d : Draft T} {e : Epoch} {s : Snapshot T} (h : d.freeze e = .ok s) :
    Alike s.toDraft d := by
  obtain ⟨hc, -, hv, hn⟩ := freeze_eq_ok_iff.1 h
  constructor
  · refine ⟨s.directory.nodes, d.nodes, [], (List.append_nil _).symm, (List.append_nil _).symm, ?_,
      s.directory.endpoints_nodup, s.directory.ascending.nodup⟩
    rw [hn]
    exact sortOn_perm Node.id d.nodes
  · change SameByKey VirtualNode.token s.ring.vnodes d.vnodes
    rw [hv]
    exact sameByKey_sortOn VirtualNode.token d.vnodes

/-- A snapshot freezes again, at any epoch. -/
theorem freeze_toDraft (s : Snapshot T) (e : Epoch) :
    s.toDraft.freeze e = .ok { s with epoch := e } :=
  freeze_eq_ok_iff.2 ⟨s.consistent_toDraft, rfl, (sortOn_of_ascending s.ring.ascending).symm,
    (sortOn_of_ascending s.directory.ascending).symm⟩

/-- **Edits can be resumed from a snapshot**: frozen in the end, they give the snapshot, or the
reason for refusal, that they would have given without it. -/
theorem resume_from_snapshot (p : Partitioner T) {edits : List (Edit T)} {epoch : Epoch}
    {s : Snapshot T} (h : (empty.applyAll p edits).freeze epoch = .ok s) (e : Epoch) :
    (∀ more, (s.toDraft.applyAll p more).freeze e =
        (empty.applyAll p (edits ++ more)).freeze e) ∧
      s.toDraft.freeze e = .ok { s with epoch := e } := by
  refine ⟨fun more => ?_, freeze_toDraft s e⟩
  have hall : empty.applyAll p (edits ++ more) = (empty.applyAll p edits).applyAll p more :=
    List.foldl_append
  rw [hall]
  exact ((alike_of_freeze h).applyAll p more).freeze_eq e

/-- Two nodes are recorded against the order of their identities and of their tokens. Of the edits
that follow, the last claims a token of the first node. -/
theorem resume_from_snapshot_clash :
    let edits : List (Edit LongToken) :=
      [.add (Snapshot.numbered 2 "west" "a") [⟨20⟩],
        .add (Snapshot.numbered 1 "west" "b") [⟨30⟩, ⟨10⟩]]
    let more : List (Edit LongToken) :=
      [.relocate 2 ⟨"east", "a"⟩, .add (Snapshot.numbered 3 "west" "c") [⟨10⟩]]
    ∃ s, (empty.applyAll .hash edits).freeze .zero = .ok s ∧
      s.ring.vnodes = [⟨⟨10⟩, 1⟩, ⟨⟨20⟩, 2⟩, ⟨⟨30⟩, 1⟩] ∧
      (s.toDraft.applyAll .hash more).freeze .zero = .error (.tokenClash ⟨⟨10⟩, 1, 3⟩) ∧
      (empty.applyAll .hash (edits ++ more)).freeze .zero = .error (.tokenClash ⟨⟨10⟩, 1, 3⟩) ∧
      s.toDraft.freeze .zero = .ok s := by
  intro edits more
  obtain ⟨s, hs⟩ : ∃ s, (empty.applyAll .hash edits).freeze .zero = .ok s :=
    isOk_iff.1 (by decide)
  obtain ⟨-, he, hv, -⟩ := freeze_eq_ok_iff.1 hs
  obtain ⟨hresume, hagain⟩ := resume_from_snapshot .hash hs .zero
  have hclash : (empty.applyAll .hash (edits ++ more)).freeze .zero =
      .error (.tokenClash ⟨⟨10⟩, 1, 3⟩) := by
    rfl
  refine ⟨s, hs, hv.trans (by decide), ?_, hclash, ?_⟩
  · rw [hresume, hclash]
  · rw [hagain, ← he]

end Draft

end ReplicaRing
