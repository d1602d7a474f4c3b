import ReplicaRing.Proofs.Freezing
import ReplicaRing.Proofs.Results

/-!
# Freezing accepts exactly the consistent drafts

A draft is frozen iff it is consistent, and a snapshot holds what was frozen and nothing else. So
neither the outcome nor the snapshot depends on the order in which a draft records its entries;
of a refusal, what may depend on it is who is reported, but not the kind of the fault.

* `TokenRing.ofList_eq_ok_iff`, `Directory.ofList_eq_ok_iff`, `Snapshot.join_eq_ok_iff`: when the
  steps of freezing succeed, and with what.
* `Draft.freeze_eq_ok_iff`: the same for drafts.
* `Draft.freeze_perm`: the outcome for two drafts with the same entries.
-/

namespace ReplicaRing

theorem sortOn_eq_of_perm {α K : Type} [LE K] [LT K] [DecidableLT K] [Std.IsLinearOrder K]
    [Std.LawfulOrderLT K] {key : α → K} {xs ys : List α} (h : xs.Perm ys)
    (hx : (xs.map key).Nodup) : sortOn key xs = sortOn key ys :=
  sortOn_eq_of_ascending (sortOn_ascending hx) (fun _ => mem_sortOn.trans h.mem_iff)
    ((h.map key).nodup_iff.1 hx)

variable {T : Type} [Token T]

/-! ## Rings -/

theorem TokenRing.ext_vnodes {r r' : TokenRing T} (h : r.vnodes = r'.vnodes) : r = r' := by
  cases r
  cases r'
  cases h
  rfl

theorem TokenRing.ofList_eq_ok_iff {vs : List (VirtualNode T)} {r : TokenRing T} :
    ofList vs = .ok r ↔
      (vs.map VirtualNode.token).Nodup ∧ r.vnodes = sortOn VirtualNode.token vs := by
  constructor
  · intro h
    have hv := vnodes_of_ofList h
    refine ⟨?_, hv⟩
    rw [← ((sortOn_perm VirtualNode.token vs).map VirtualNode.token).nodup_iff, ← hv]
    exact r.ascending.nodup
  · rintro ⟨hn, hv⟩
    obtain ⟨r', hr', hv'⟩ := ofList_of_nodup hn
    rw [hr', ext_vnodes (hv.trans hv'.symm)]

theorem TokenRing.ofList_perm {vs vs' : List (VirtualNode T)} (h : vs.Perm vs') :
    (ofList vs).toOption = (ofList vs').toOption := by
  ext r
  rw [toOption_eq_some_iff, toOption_eq_some_iff, ofList_eq_ok_iff, ofList_eq_ok_iff,
    ← (h.map VirtualNode.token).nodup_iff]
  exact and_congr_right fun hn => by rw [sortOn_eq_of_perm h hn]

/-! ## Directories -/

theorem Registry.nodes_of_register {r r' : Registry} {n : Node} (h : r.register n = .ok r') :
    r'.nodes = insertOn Node.id n r.nodes := by
  unfold register at h
  split at h
  · cases h
  · split at h
    · cases h
    · cases h
      rfl

theorem Registry.nodes_of_foldlM_register {r r' : Registry} {ns : List Node}
    (h : ns.foldlM register r = .ok r') : r'.nodes.Perm (r.nodes ++ ns) := by
  induction ns generalizing r with
  | nil =>
    cases h
    rw [List.append_nil]
  | cons n ns ih =>
    rw [List.foldlM_cons] at h
    cases hr : r.register n with
    | error e =>
      rw [hr] at h
      cases h
    | ok r1 =>
      rw [hr] at h
      refine (ih h).trans ?_
      rw [nodes_of_register hr]
      exact ((insertOn_perm Node.id n r.nodes).append_right ns).trans List.perm_middle.symm

namespace Directory

variable {d : Directory} {ns ns' : List Node}

theorem nodes_of_ofList (h : ofList ns = .ok d) : d.nodes.Perm ns := by
  obtain ⟨r, hr, rfl⟩ := map_eq_ok_iff.1 h
  exact Registry.nodes_of_foldlM_register hr

theorem ofList_eq_ok_iff : ofList ns = .ok d ↔
    (ns.map Node.endpoint).Nodup ∧ (ns.map Node.id).Nodup ∧ d.nodes = sortOn Node.id ns := by
  constructor
  · intro h
    have hp := nodes_of_ofList h
    have hi : (ns.map Node.id).Nodup := (hp.map _).nodup_iff.1 d.ascending.nodup
    exact ⟨(hp.map _).nodup_iff.1 d.endpoints_nodup, hi,
      sortOn_eq_of_ascending d.ascending (fun _ => hp.mem_iff) hi⟩
  · rintro ⟨he, hi, hd⟩
    obtain ⟨d', hd', hn⟩ := ofList_of_nodup he hi
    rw [hd', ext_nodes (hd.trans hn.symm)]

theorem ofList_perm (h : ns.Perm ns') : (ofList ns).toOption = (ofList ns').toOption := by
  ext d
  rw [toOption_eq_some_iff, toOption_eq_some_iff, ofList_eq_ok_iff, ofList_eq_ok_iff,
    ← (h.map Node.endpoint).nodup_iff, ← (h.map Node.id).nodup_iff]
  exact and_congr_right fun _ => and_congr_right fun hi => by rw [sortOn_eq_of_perm h hi]

end Directory

/-! ## Snapshots -/

theorem Snapshot.join_eq_ok_iff {e : Epoch} {ring : TokenRing T} {d : Directory}
    {s : Snapshot T} : join e ring d = .ok s ↔ s.epoch = e ∧ s.ring = ring ∧ s.directory = d := by
  constructor
  · intro h
    unfold join at h
    split at h
    · cases h
    · split at h
      · cases h
      · cases h
        exact ⟨rfl, rfl, rfl⟩
  · rintro ⟨rfl, rfl, rfl⟩
    exact join_of_matching s.epoch s.registered s.owning

namespace Draft

variable {d d' : Draft T} {e : Epoch} {s : Snapshot T}

theorem freeze_eq_ok : d.freeze e = .ok s ↔
    TokenRing.ofList d.vnodes = .ok s.ring ∧ Directory.ofList d.nodes = .ok s.directory ∧
      s.epoch = e := by
  unfold freeze
  constructor
  · intro h
    split at h
    · cases h
    · rename_i ring hring
      split at h
      · cases h
      · rename_i dir hdir
        obtain ⟨he, hr, hd⟩ := Snapshot.join_eq_ok_iff.1 h
        rw [hr, hd]
        exact ⟨hring, hdir, he⟩
  · rintro ⟨hring, hdir, he⟩
    rw [hring, hdir]
    exact Snapshot.join_eq_ok_iff.2 ⟨he, rfl, rfl⟩

/-- **A draft is frozen iff it is consistent**, into a snapshot of what it records. -/
theorem freeze_eq_ok_iff : d.freeze e = .ok s ↔
    d.Consistent ∧ s.epoch = e ∧ s.ring.vnodes = sortOn VirtualNode.token d.vnodes ∧
      s.directory.nodes = sortOn Node.id d.nodes := by
  constructor
  · intro h
    obtain ⟨hring, hdir, he⟩ := freeze_eq_ok.1 h
    obtain ⟨ht, hv⟩ := TokenRing.ofList_eq_ok_iff.1 hring
    obtain ⟨hend, hid, hn⟩ := Directory.ofList_eq_ok_iff.1 hdir
    refine ⟨⟨ht, hend, hid, fun id => ?_⟩, he, hv, hn⟩
    -- the snapshot that came of it has the same owners and nodes
    have howners := s.consistent_toDraft.owners id
    simp only [Snapshot.toDraft, hv, hn, mem_sortOn] at howners
    exact howners
  · rintro ⟨hc, he, hv, hn⟩
    exact freeze_eq_ok.2 ⟨TokenRing.ofList_eq_ok_iff.2 ⟨hc.tokens, hv⟩,
      Directory.ofList_eq_ok_iff.2 ⟨hc.endpoints, hc.ids, hn⟩, he⟩

theorem exists_freeze_iff : (∃ s, d.freeze e = .ok s) ↔ d.Consistent := by
  constructor
  · rintro ⟨s, hs⟩
    exact (freeze_eq_ok_iff.1 hs).1
  · intro hc
    obtain ⟨s, hs, -⟩ := freeze_of_consistent hc e
    exact ⟨s, hs⟩

end Draft

/-! ## Refusals -/

/-- What a refused topology is at fault in. -/
inductive TopologyError.Kind
  /-- Two claims to one token. -/
  | ring
  /-- Two nodes with one identity or one endpoint. -/
  | node
  /-- An owner that is not registered, or a node that owns nothing. -/
  | membership
  deriving DecidableEq

def TopologyError.kind : TopologyError T → Kind
  | .tokenClash _ => .ring
  | .registration _ => .node
  | .unregisteredOwner _ | .idleNode _ _ => .membership

/-- **The order of its entries does not decide about a draft**: drafts with the same entries freeze
into the same snapshot, or are refused for the same kind of fault. -/
theorem Draft.freeze_perm {d d' : Draft T} (hv : d.vnodes.Perm d'.vnodes)
    (hn : d.nodes.Perm d'.nodes) (e : Epoch) :
    (d.freeze e).mapError TopologyError.kind = (d'.freeze e).mapError TopologyError.kind := by
  have hring := TokenRing.ofList_perm hv
  have hdir := Directory.ofList_perm hn
  unfold freeze
  cases h : TokenRing.ofList d.vnodes <;> cases h' : TokenRing.ofList d'.vnodes <;>
    rw [h, h'] at hring <;> cases hring
  · rfl
  · cases h : Directory.ofList d.nodes <;> cases h' : Directory.ofList d'.nodes <;>
      rw [h, h'] at hdir <;> cases hdir <;> rfl

end ReplicaRing
