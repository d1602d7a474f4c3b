import ReplicaRing.Proofs.Quota
import ReplicaRing.Proofs.Refusal
import ReplicaRing.Proofs.Roster

/-!
# The bindings that a ring is made of

A ring is made of bindings of tokens to nodes, listed in any order, and it can be made unless two of
them bind one token. Then it answers for these bindings: who owns a token, which tokens a node owns,
and how many nodes there are.

* `TokenRing.ofList_fails_iff`: which bindings no ring can be made of.
* `TokenRing.Records`: what a ring of these bindings answers; `records_vnodes`: it does.
* `TokenRing.bindings_recorded`: both together, for bindings in any order.
-/

namespace ReplicaRing

namespace TokenRing

variable {T : Type} [Token T]

/-- What a ring of these bindings answers. -/
structure Records (r : TokenRing T) (S : Set (VirtualNode T)) : Prop where
  vnodes : Enumerates VirtualNode.token r.vnodes S
  ownerOf? (t : T) (i : NodeId) : r.ownerOf? t = some i ↔ ⟨t, i⟩ ∈ S
  tokensOf (i : NodeId) : Enumerates id (r.tokensOf i) {t | ⟨t, i⟩ ∈ S}
  nodes : Enumerates id r.nodes {i | ∃ t, ⟨t, i⟩ ∈ S}
  /-- The owners are counted once each. -/
  nodeCount : r.nodeCount = {i | ∃ t, (⟨t, i⟩ : VirtualNode T) ∈ S}.ncard
  length_nodes : r.nodes.length = r.nodeCount
  /-- Each token is counted for one owner. -/
  sum_tokensOf : (r.nodes.map fun i => (r.tokensOf i).length).sum = r.size

/-- **Bindings are refused** iff two of them bind one token. -/
theorem ofList_fails_iff {vs : List (VirtualNode T)} : (∃ c, ofList vs = .error c) ↔
    ∃ (i j : Nat) (v w : VirtualNode T), i < j ∧ vs[i]? = some v ∧ vs[j]? = some w ∧
      v.token = w.token := by
  rw [← not_nodup_map_iff]
  constructor
  · rintro ⟨c, hc⟩
    exact (ofList_eq_error_iff.1 hc).not_nodup
  · intro h
    cases hr : ofList vs with
    | error c => exact ⟨c, rfl⟩
    | ok r => exact absurd (ofList_eq_ok_iff.1 hr).1 h

theorem sum_length_tokensOf (r : TokenRing T) :
    (r.nodes.map fun i => (r.tokensOf i).length).sum = r.size := by
  have hnodup : r.nodes.Nodup := (ascendingSet_ascending _).nodup.of_map
  have hnamed : ∀ v ∈ r.vnodes, v.node ∈ r.nodes := fun v hv => mem_nodes.2 ⟨v, hv, rfl⟩
  rw [size, Placement.length_eq_sum_filter hnodup hnamed]
  simp only [tokensOf, List.length_map]

/-- A ring answers for its own bindings. -/
theorem records_vnodes (r : TokenRing T) : r.Records {v | v ∈ r.vnodes} := by
  have hnodes : Enumerates id r.nodes {i | ∃ t, (⟨t, i⟩ : VirtualNode T) ∈ r.vnodes} := by
    refine ⟨ascendingSet_ascending _, fun i => mem_nodes.trans ?_⟩
    constructor
    · rintro ⟨v, hv, rfl⟩
      exact ⟨v.token, hv⟩
    · rintro ⟨t, ht⟩
      exact ⟨⟨t, i⟩, ht, rfl⟩
  exact {
    vnodes := ⟨r.ascending, fun _ => Iff.rfl⟩
    ownerOf? := fun _ _ => ownerOf?_eq_some_iff
    tokensOf := fun i => ⟨r.ascending_tokensOf i, fun _ => mem_tokensOf⟩
    nodes := hnodes
    nodeCount := r.length_nodes.symm.trans hnodes.length_eq
    length_nodes := r.length_nodes
    sum_tokensOf := r.sum_length_tokensOf }

/-- **A ring records its bindings.** They are refused iff two of them bind one token, for the least
such token and its first two claimants. Otherwise the ring has these bindings by token, answers for
them, and is the same in whatever order they are listed. -/
theorem bindings_recorded (vs : List (VirtualNode T)) :
    ((∃ c, ofList vs = .error c) ↔ ∃ (i j : Nat) (v w : VirtualNode T), i < j ∧
      vs[i]? = some v ∧ vs[j]? = some w ∧ v.token = w.token) ∧
    (∀ c, ofList vs = .error c ↔ c.IsFirst vs) ∧
    ∀ r, ofList vs = .ok r → r.vnodes.Perm vs ∧ r.Records {v | v ∈ vs} ∧
      ∀ vs', vs'.Perm vs → ofList vs' = .ok r := by
  refine ⟨ofList_fails_iff, fun _ => ofList_eq_error_iff, fun r h => ?_⟩
  have hp : r.vnodes.Perm vs := by
    rw [vnodes_of_ofList h]
    exact sortOn_perm _ _
  have hset : {v | v ∈ vs} = {v | v ∈ r.vnodes} := Set.ext fun v => hp.mem_iff.symm
  refine ⟨hp, ?_, fun vs' hp' => ?_⟩
  · rw [hset]
    exact r.records_vnodes
  · rw [← toOption_eq_some_iff, ofList_perm hp', toOption_eq_some_iff]
    exact h

/-- Two tokens are claimed repeatedly, the lower of them by three nodes. Without these claims the
bindings make a ring. -/
theorem bindings_recorded_claims :
    let vs : List (VirtualNode LongToken) := [⟨⟨30⟩, 1⟩, ⟨⟨20⟩, 3⟩, ⟨⟨10⟩, 1⟩]
    let more : List (VirtualNode LongToken) := [⟨⟨30⟩, 2⟩, ⟨⟨20⟩, 1⟩, ⟨⟨20⟩, 2⟩]
    ofList (vs ++ more) = .error ⟨⟨20⟩, 3, 1⟩ ∧
      (⟨⟨20⟩, 3, 1⟩ : TokenClash LongToken).IsFirst (vs ++ more) ∧
      ∃ r, ofList vs = .ok r ∧ ofList vs.reverse = .ok r ∧ r.vnodes.Perm vs ∧
        r.Records {v | v ∈ vs} := by
  intro vs more
  have herror : ofList (vs ++ more) = .error ⟨⟨20⟩, 3, 1⟩ := rfl
  obtain ⟨r, hr⟩ : ∃ r, ofList vs = .ok r := isOk_iff.1 (by decide)
  obtain ⟨-, -, hok⟩ := bindings_recorded vs
  obtain ⟨hp, hrecords, hany⟩ := hok r hr
  exact ⟨herror, ((bindings_recorded _).2.1 _).1 herror, r, hr, hany _ vs.reverse_perm, hp, hrecords⟩

end TokenRing

end ReplicaRing
