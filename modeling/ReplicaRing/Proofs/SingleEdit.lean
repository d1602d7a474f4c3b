import ReplicaRing.Proofs.Commuting
import ReplicaRing.Proofs.Resuming
import ReplicaRing.Proofs.Roster

/-!
# What a single edit does

An edit is recorded without a look at what is there; only freezing checks the draft. For one edit of
a snapshot this comes to a condition on the snapshot's roster for each kind of edit, and to one
entry of the roster that changes. The ring, the directory and all their indexes follow.

* `Draft.roster` is what a draft records of the members; `roster_of_freeze`: it is what the frozen
  snapshot shows.
* `roster_add`, `roster_remove`, `roster_move`, `roster_relocate`: what the edits do to it, at one
  identity.
* `Consistent.add_iff`, `Consistent.move_iff`, `Consistent.relocate`: which edits leave a draft
  consistent; removing always does.
* `Snapshot.edits_yield`: effect and frame of one edit of a snapshot.
-/

namespace ReplicaRing

variable {T : Type}

/-! ## Rosters -/

namespace Roster

/-- The node can join with these tokens: nobody has its identity, its endpoint or one of them. -/
structure Admits (m : Roster T) (n : Node) (tokens : List T) : Prop where
  id_new : m n.id = none
  endpoint_new : ∀ i x, m i = some x → x.endpoint ≠ n.endpoint
  ne_nil : tokens ≠ []
  nodup : tokens.Nodup
  unowned : ∀ t ∈ tokens, ∀ i, ¬m.Owns i t

/-- The member can have these tokens in place of its own: no other member owns one of them. -/
structure Grants (m : Roster T) (i : NodeId) (tokens : List T) : Prop where
  ne_nil : tokens ≠ []
  nodup : tokens.Nodup
  unowned : ∀ t ∈ tokens, ∀ j, j ≠ i → ¬m.Owns j t

theorem update_none {m : Roster T} {i : NodeId} (h : m i = none) :
    Function.update m i none = m := by
  rw [← h, Function.update_eq_self]

end Roster

/-! ## Consistency -/

namespace Draft

section
variable {d : Draft T} {vs : List (VirtualNode T)} {ns : List Node} {n : Node} {tokens : List T}
  {i j : NodeId}

theorem nodup_registered_iff {K : Type} {key : Node → K} :
    ((ns ++ [n]).map key).Nodup ↔ (ns.map key).Nodup ∧ ∀ m ∈ ns, key m ≠ key n := by
  simp [List.nodup_append]

theorem nodup_bound_iff : ((vs ++ tokens.map (VirtualNode.mk · i)).map VirtualNode.token).Nodup ↔
    (vs.map VirtualNode.token).Nodup ∧ tokens.Nodup ∧ ∀ v ∈ vs, v.token ∉ tokens := by
  have htokens : (tokens.map (VirtualNode.mk · i)).map VirtualNode.token = tokens := by
    simp [Function.comp_def]
  rw [List.map_append, htokens, List.nodup_append]
  refine and_congr_right fun _ => and_congr_right fun _ => ⟨fun h v hv ht => ?_, ?_⟩
  · exact h v.token (List.mem_map_of_mem hv) v.token ht rfl
  · intro h t ht t' ht' htt
    obtain ⟨v, hv, rfl⟩ := List.mem_map.1 ht
    exact h v hv (htt ▸ ht')

theorem owner_bound_iff : (∃ v ∈ vs ++ tokens.map (VirtualNode.mk · i), v.node = j) ↔
    (∃ v ∈ vs, v.node = j) ∨ tokens ≠ [] ∧ i = j := by
  have htokens : (∃ t, t ∈ tokens) ↔ tokens ≠ [] :=
    ⟨fun ⟨_, ht⟩ => List.ne_nil_of_mem ht, List.exists_mem_of_ne_nil tokens⟩
  simp [or_and_right, exists_or, ← htokens]

/-- After a move the new tokens decide whether its subject is an owner. -/
theorem owner_move_iff : (∃ v ∈ (d.move i tokens).vnodes, v.node = j) ↔
    if j = i then tokens ≠ [] else ∃ v ∈ d.vnodes, v.node = j := by
  have hkept : (∃ v ∈ d.vnodes.filter fun v => decide (v.node ≠ i), v.node = j) ↔
      j ≠ i ∧ ∃ v ∈ d.vnodes, v.node = j := by
    simp only [List.mem_filter, decide_eq_true_eq]
    constructor
    · intro ⟨v, ⟨hv, hne⟩, hj⟩
      exact ⟨hj ▸ hne, v, hv, hj⟩
    · intro ⟨hne, v, hv, hj⟩
      exact ⟨v, ⟨hv, hj ▸ hne⟩, hj⟩
  show (∃ v ∈ _ ++ tokens.map (VirtualNode.mk · i), v.node = j) ↔ _
  rw [owner_bound_iff, hkept]
  by_cases h : j = i
  · simp [h]
  · simp [h, Ne.symm h]

theorem map_nodes_relocate {K : Type} {key : Node → K} {location : Location}
    (h : ∀ n : Node, key { n with location } = key n) :
    (d.relocate i location).nodes.map key = d.nodes.map key := by
  simp only [relocate, List.map_map]
  refine List.map_congr_left fun n _ => ?_
  rw [Function.comp_apply]
  split
  · exact h n
  · rfl

end

namespace Consistent

variable {d : Draft T} {tokens : List T} {i : NodeId}

/-- **A node can be added** iff it is new in every respect and brings tokens that are free. -/
theorem add_iff (hc : d.Consistent) {n : Node} : (d.add n tokens).Consistent ↔
    (∀ m ∈ d.nodes, m.id ≠ n.id) ∧ (∀ m ∈ d.nodes, m.endpoint ≠ n.endpoint) ∧ tokens ≠ [] ∧
      tokens.Nodup ∧ ∀ v ∈ d.vnodes, v.token ∉ tokens := by
  have howners : ∀ j, (∃ v ∈ (d.add n tokens).vnodes, v.node = j) ↔
      (∃ v ∈ d.vnodes, v.node = j) ∨ tokens ≠ [] ∧ n.id = j := fun _ => owner_bound_iff
  constructor
  · intro h
    have hid := (nodup_registered_iff.1 h.ids).2
    have hendpoint := (nodup_registered_iff.1 h.endpoints).2
    -- its tokens can only come with it, as nobody had its identity
    have hne : tokens ≠ [] := by
      have hn : ∃ m ∈ (d.add n tokens).nodes, m.id = n.id := ⟨n, by simp [Draft.add], rfl⟩
      rcases (howners n.id).1 ((h.owners n.id).2 hn) with hv | ⟨hne, -⟩
      · obtain ⟨m, hm, hmid⟩ := (hc.owners n.id).1 hv
        exact absurd hmid (hid m hm)
      · exact hne
    exact ⟨hid, hendpoint, hne, (nodup_bound_iff.1 h.tokens).2⟩
  · rintro ⟨hid, hendpoint, hne, hfree⟩
    refine ⟨nodup_bound_iff.2 ⟨hc.tokens, hfree⟩, nodup_registered_iff.2 ⟨hc.endpoints, hendpoint⟩,
      nodup_registered_iff.2 ⟨hc.ids, hid⟩, fun j => ?_⟩
    rw [howners, hc.owners]
    simp [Draft.add, hne, or_and_right, exists_or]

/-- **A node can be moved** to free tokens, one at least, and an unknown one to none. -/
theorem move_iff (hc : d.Consistent) : (d.move i tokens).Consistent ↔
    (tokens ≠ [] ↔ ∃ n ∈ d.nodes, n.id = i) ∧ tokens.Nodup ∧
      ∀ v ∈ d.vnodes, v.node ≠ i → v.token ∉ tokens := by
  have htokens : ((d.move i tokens).vnodes.map VirtualNode.token).Nodup ↔ tokens.Nodup ∧
      ∀ v ∈ d.vnodes, v.node ≠ i → v.token ∉ tokens := by
    have hkept : ((d.vnodes.filter fun v => decide (v.node ≠ i)).map VirtualNode.token).Nodup :=
      (hc.remove i).tokens
    show ((_ ++ tokens.map (VirtualNode.mk · i)).map VirtualNode.token).Nodup ↔ _
    rw [nodup_bound_iff, and_iff_right hkept]
    simp only [List.mem_filter, decide_eq_true_eq, and_imp]
  constructor
  · intro h
    have hi := h.owners i
    rw [owner_move_iff, if_pos rfl] at hi
    exact ⟨hi, htokens.1 h.tokens⟩
  · intro ⟨hi, hfree⟩
    refine ⟨htokens.2 hfree, hc.endpoints, hc.ids, fun j => ?_⟩
    rw [owner_move_iff]
    split
    · rename_i hj
      rw [hj]
      exact hi
    · exact hc.owners j

theorem relocate (hc : d.Consistent) (i : NodeId) (location : Location) :
    (d.relocate i location).Consistent := by
  have hids : (d.relocate i location).nodes.map Node.id = d.nodes.map Node.id :=
    map_nodes_relocate fun _ => rfl
  have hendpoints : (d.relocate i location).nodes.map Node.endpoint = d.nodes.map Node.endpoint :=
    map_nodes_relocate fun _ => rfl
  refine ⟨hc.tokens, ?_, ?_, fun j => ?_⟩
  · rw [hendpoints]
    exact hc.endpoints
  · rw [hids]
    exact hc.ids
  · rw [← List.mem_map (f := Node.id), hids, List.mem_map]
    exact hc.owners j

end Consistent

end Draft

/-! ## The rosters of drafts -/

namespace Draft

variable [Token T] {d d' : Draft T} {i : NodeId}

/-- What a draft records of the members; of several nodes with one identity the first counts. -/
def roster (d : Draft T) : Roster T := fun i =>
  (d.about i).nodes.head?.map fun n =>
    ⟨n.endpoint, n.location, ((d.about i).vnodes.map VirtualNode.token).toFinset⟩

/-- **A frozen draft shows what it records.** -/
theorem roster_of_freeze {e : Epoch} {s : Snapshot T} (h : d.freeze e = .ok s) :
    s.roster = d.roster := by
  obtain ⟨hc, -, hv, hn⟩ := freeze_eq_ok_iff.1 h
  funext i
  have hnode : s.directory.node? i = (d.about i).nodes.head? := by
    ext n
    rw [Registry.node?_eq_some_iff, hn, mem_sortOn, about, List.head?_filter,
      find?_key_eq_some_iff hc.ids]
  have htokens : (s.ring.tokensOf i).toFinset =
      ((d.about i).vnodes.map VirtualNode.token).toFinset := by
    ext t
    simp [TokenRing.tokensOf, about, hv]
  rw [Snapshot.roster, hnode, htokens]
  rfl

/-- An edit that is about one identity changes the roster there and nowhere else. -/
theorem roster_eq_update {x : Option (Member T)} (hself : d'.roster i = x)
    (hother : ∀ j, i ≠ j → d'.about j = d.about j) : d'.roster = Function.update d.roster i x := by
  rw [Function.eq_update_iff]
  refine ⟨hself, fun j hj => ?_⟩
  simp only [roster, hother j hj.symm]

theorem roster_eq_none_iff : d.roster i = none ↔ ∀ n ∈ d.nodes, n.id ≠ i := by
  simp [roster, about, List.head?_filter]

theorem roster_add {n : Node} (hc : d.Consistent) (h : d.roster n.id = none) (tokens : List T) :
    (d.add n tokens).roster =
      Function.update d.roster n.id (some ⟨n.endpoint, n.location, tokens.toFinset⟩) := by
  -- who is not registered owns nothing either
  have hnone : d.about n.id = empty := by
    have hn := roster_eq_none_iff.1 h
    have hv : ∀ v ∈ d.vnodes, v.node ≠ n.id := by
      intro v hv hid
      obtain ⟨m, hm, hmid⟩ := (hc.owners n.id).1 ⟨v, hv, hid⟩
      exact hn m hm hmid
    simpa [about, empty] using ⟨hn, hv⟩
  refine roster_eq_update ?_ fun j hj => about_add_of_ne d n tokens hj
  simp only [roster, about_add_self, hnone]
  simp [add, empty, Function.comp_def]

theorem roster_remove (d : Draft T) (i : NodeId) :
    (d.remove i).roster = Function.update d.roster i none := by
  refine roster_eq_update ?_ fun j hj => about_remove_of_ne d hj
  simp [roster_eq_none_iff, remove]

theorem roster_move (d : Draft T) (i : NodeId) (tokens : List T) :
    (d.move i tokens).roster = Function.update d.roster i
      ((d.roster i).map fun x => { x with tokens := tokens.toFinset }) := by
  refine roster_eq_update ?_ fun j hj => about_move_of_ne d tokens hj
  have htokens : ((d.about i).move i tokens).vnodes.map VirtualNode.token = tokens := by
    simp [move, about, List.filter_filter, Function.comp_def]
  simp only [roster, about_move_self, htokens]
  simp [move, Function.comp_def]

theorem roster_relocate (d : Draft T) (i : NodeId) (location : Location) :
    (d.relocate i location).roster = Function.update d.roster i
      ((d.roster i).map fun x => { x with location }) := by
  refine roster_eq_update ?_ fun j hj => about_relocate_of_ne d location hj
  have hnodes : ((d.about i).relocate i location).nodes =
      (d.about i).nodes.map fun n => { n with location } := by
    refine List.map_congr_left fun n hn => if_pos ?_
    simpa [about] using (List.mem_filter.1 hn).2
  simp only [roster, about_relocate_self, hnodes]
  simp [relocate, Function.comp_def]

/-! ## One edit of a snapshot -/

/-- The draft freezes iff the condition holds, and then into a snapshot that shows the roster. -/
structure Yields (d : Draft T) (epoch : Epoch) (condition : Prop) (m : Roster T) : Prop where
  freezes_iff : (∃ s, d.freeze epoch = .ok s) ↔ condition
  shows (s : Snapshot T) : d.freeze epoch = .ok s → s.epoch = epoch ∧ s.Shows m

theorem yields_of_consistent_iff {condition : Prop} {m : Roster T}
    (hcondition : d.Consistent ↔ condition) (hroster : d.Consistent → d.roster = m)
    (epoch : Epoch) : d.Yields epoch condition m := by
  refine ⟨exists_freeze_iff.trans hcondition, fun s hs => ?_⟩
  obtain ⟨hc, he, -⟩ := freeze_eq_ok_iff.1 hs
  have hm : s.roster = m := (roster_of_freeze hs).trans (hroster hc)
  exact ⟨he, hm ▸ s.shows_roster⟩

end Draft

namespace Snapshot

variable [Token T]

theorem roster_toDraft (s : Snapshot T) : s.toDraft.roster = s.roster :=
  (Draft.roster_of_freeze (Draft.freeze_toDraft s s.epoch)).symm

variable {s : Snapshot T} {i : NodeId} {tokens : List T}

theorem roster_eq_none_iff : s.roster i = none ↔ ∀ n ∈ s.directory.nodes, n.id ≠ i := by
  rw [← roster_toDraft]
  exact Draft.roster_eq_none_iff

theorem consistent_add_iff {n : Node} :
    (s.toDraft.add n tokens).Consistent ↔ s.roster.Admits n tokens := by
  rw [s.consistent_toDraft.add_iff]
  constructor
  · intro ⟨hid, hendpoint, hne, hnodup, hfree⟩
    refine ⟨roster_eq_none_iff.2 hid, ?_, hne, hnodup, ?_⟩
    · intro i x hx
      obtain ⟨m, hm, -, rfl⟩ := roster_eq_some_iff.1 hx
      exact hendpoint m hm
    · intro t ht i hi
      exact hfree ⟨t, i⟩ (owns_roster_iff.1 hi) ht
  · intro h
    refine ⟨roster_eq_none_iff.1 h.id_new, ?_, h.ne_nil, h.nodup, ?_⟩
    · intro m hm
      exact h.endpoint_new m.id _ (roster_eq_some_iff.2 ⟨m, hm, rfl, rfl⟩)
    · intro v hv ht
      exact h.unowned v.token ht v.node (owns_roster_iff.2 hv)

theorem consistent_move_iff {x : Member T} (hx : s.roster i = some x) :
    (s.toDraft.move i tokens).Consistent ↔ s.roster.Grants i tokens := by
  obtain ⟨n, hn, hi, -⟩ := roster_eq_some_iff.1 hx
  have hregistered : ∃ n ∈ s.toDraft.nodes, n.id = i := ⟨n, hn, hi⟩
  rw [s.consistent_toDraft.move_iff, iff_true_right hregistered]
  constructor
  · intro ⟨hne, hnodup, hfree⟩
    refine ⟨hne, hnodup, fun t ht j hj hown => ?_⟩
    exact hfree ⟨t, j⟩ (owns_roster_iff.1 hown) hj ht
  · intro h
    refine ⟨h.ne_nil, h.nodup, fun v hv hne ht => ?_⟩
    exact h.unowned v.token ht v.node hne (owns_roster_iff.2 hv)

theorem consistent_move_unknown_iff (hi : s.roster i = none) :
    (s.toDraft.move i tokens).Consistent ↔ tokens = [] := by
  have hunknown : ¬∃ n ∈ s.toDraft.nodes, n.id = i := by
    intro ⟨n, hn, hid⟩
    exact roster_eq_none_iff.1 hi n hn hid
  rw [s.consistent_toDraft.move_iff, iff_false_right hunknown, not_not]
  constructor
  · exact And.left
  · intro h
    simp [h]

section
variable (s i tokens) (epoch : Epoch)

theorem yields_add (n : Node) : (s.toDraft.add n tokens).Yields epoch (s.roster.Admits n tokens)
    (Function.update s.roster n.id (some ⟨n.endpoint, n.location, tokens.toFinset⟩)) := by
  refine Draft.yields_of_consistent_iff consistent_add_iff (fun h => ?_) epoch
  have hnew := (consistent_add_iff.1 h).id_new
  rw [← roster_toDraft] at hnew ⊢
  exact Draft.roster_add s.consistent_toDraft hnew tokens

theorem yields_remove :
    (s.toDraft.remove i).Yields epoch True (Function.update s.roster i none) := by
  have hc : (s.toDraft.remove i).Consistent := s.consistent_toDraft.remove i
  refine Draft.yields_of_consistent_iff (iff_true_intro hc) (fun _ => ?_) epoch
  rw [Draft.roster_remove, roster_toDraft]

theorem yields_relocate (location : Location) : (s.toDraft.relocate i location).Yields epoch True
    (Function.update s.roster i ((s.roster i).map fun x => { x with location })) := by
  have hc : (s.toDraft.relocate i location).Consistent := s.consistent_toDraft.relocate i location
  refine Draft.yields_of_consistent_iff (iff_true_intro hc) (fun _ => ?_) epoch
  rw [Draft.roster_relocate, roster_toDraft]

theorem yields_move {x : Member T} (hx : s.roster i = some x) :
    (s.toDraft.move i tokens).Yields epoch (s.roster.Grants i tokens)
      (Function.update s.roster i (some { x with tokens := tokens.toFinset })) := by
  refine Draft.yields_of_consistent_iff (consistent_move_iff hx) (fun _ => ?_) epoch
  rw [Draft.roster_move, roster_toDraft, hx, Option.map_some]

theorem yields_move_unknown (hi : s.roster i = none) :
    (s.toDraft.move i tokens).Yields epoch (tokens = []) s.roster := by
  refine Draft.yields_of_consistent_iff (consistent_move_unknown_iff hi) (fun _ => ?_) epoch
  rw [Draft.roster_move, roster_toDraft, hi, Option.map_none, Roster.update_none hi]

end

/-- **Effect and frame of one edit.** A snapshot shows its roster, and so does what becomes of it.
A node joins iff the roster admits it with its tokens. A member can always be removed or relocated,
and moved iff the roster grants it the tokens. Each time no other entry changes. For an identity
that is not on the roster, removing and relocating change nothing, nor does a move to no tokens, and
there is no other move. -/
theorem edits_yield (s : Snapshot T) (epoch : Epoch) :
    s.Shows s.roster ∧
    (∀ n tokens, (s.toDraft.add n tokens).Yields epoch (s.roster.Admits n tokens)
      (Function.update s.roster n.id (some ⟨n.endpoint, n.location, tokens.toFinset⟩))) ∧
    (∀ i x, s.roster i = some x →
      (s.toDraft.remove i).Yields epoch True (Function.update s.roster i none) ∧
      (∀ tokens, (s.toDraft.move i tokens).Yields epoch (s.roster.Grants i tokens)
        (Function.update s.roster i (some { x with tokens := tokens.toFinset }))) ∧
      ∀ location, (s.toDraft.relocate i location).Yields epoch True
        (Function.update s.roster i (some { x with location }))) ∧
    ∀ i, s.roster i = none →
      (s.toDraft.remove i).Yields epoch True s.roster ∧
      (∀ tokens, (s.toDraft.move i tokens).Yields epoch (tokens = []) s.roster) ∧
      ∀ location, (s.toDraft.relocate i location).Yields epoch True s.roster := by
  refine ⟨s.shows_roster, fun n tokens => s.yields_add tokens epoch n, ?_, ?_⟩
  · intro i x hx
    refine ⟨s.yields_remove i epoch, fun tokens => s.yields_move i tokens epoch hx, ?_⟩
    intro location
    have h := s.yields_relocate i epoch location
    rwa [hx] at h
  · intro i hi
    refine ⟨?_, fun tokens => s.yields_move_unknown i tokens epoch hi, fun location => ?_⟩
    · have h := s.yields_remove i epoch
      rwa [Roster.update_none hi] at h
    · have h := s.yields_relocate i epoch location
      rwa [hi, Option.map_none, Roster.update_none hi] at h

/-- The first node keeps one of its tokens and exchanges the other, but cannot have the token of the
second node; a node that is not registered can be moved, to no tokens only. -/
theorem edits_yield_fourNodes :
    let s := fourNodes
    let first : Member LongToken :=
      ⟨(numbered 1 "west" "a").endpoint, ⟨"west", "a"⟩, {⟨10⟩, ⟨50⟩}⟩
    s.roster 1 = some first ∧ s.roster 5 = none ∧
      (∃ s', (s.toDraft.move 1 [⟨10⟩, ⟨45⟩]).freeze .zero = .ok s' ∧
        s'.Shows (Function.update s.roster 1 (some { first with tokens := {⟨10⟩, ⟨45⟩} }))) ∧
      (¬∃ s', (s.toDraft.move 1 [⟨20⟩]).freeze .zero = .ok s') ∧
      (∃ s', (s.toDraft.move 5 []).freeze .zero = .ok s' ∧ s'.Shows s.roster) ∧
      ¬∃ s', (s.toDraft.move 5 [⟨60⟩]).freeze .zero = .ok s' := by
  intro s first
  have hfirst : s.roster 1 = some first := rfl
  have hunknown : s.roster 5 = none := rfl
  obtain ⟨-, -, hmember, hother⟩ := edits_yield s .zero
  have hmove := (hmember 1 first hfirst).2.1
  have hmove' := (hother 5 hunknown).2.1
  have howns : s.roster.Owns 2 ⟨20⟩ := owns_roster_iff.2 (by decide)
  obtain ⟨s1, hs1⟩ : ∃ s', (s.toDraft.move 1 [⟨10⟩, ⟨45⟩]).freeze .zero = .ok s' :=
    isOk_iff.1 (by decide)
  obtain ⟨s5, hs5⟩ := (hmove' []).freezes_iff.2 rfl
  refine ⟨hfirst, hunknown, ⟨s1, hs1, ((hmove _).shows s1 hs1).2⟩, fun h => ?_,
    ⟨s5, hs5, ((hmove' []).shows s5 hs5).2⟩, fun h => ?_⟩
  · exact ((hmove _).freezes_iff.1 h).unowned ⟨20⟩ (.head _) 2 (by decide) howns
  · cases (hmove' _).freezes_iff.1 h

/-- The datacenter of the only node there goes with it. -/
example : ((fourNodes.toDraft.remove 4).freeze .zero).map (·.directory.datacenters) =
    .ok ["west"] := by
  rfl

end Snapshot

end ReplicaRing
