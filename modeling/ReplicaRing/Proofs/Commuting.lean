import ReplicaRing.Proofs.Acceptance
import ReplicaRing.Proofs.Members
import ReplicaRing.Proofs.Reordering

/-!
# Edits of different nodes commute

An edit that names its tokens is about one identity: it changes what a draft records about that
identity, by what is recorded about it, and nothing else. So the record of an identity after any
edits is the work of the edits about it alone, and edits of different nodes can be carried out in
any order. Derived tokens are left out, as they keep clear of the tokens of all other nodes.

* `Draft.about`: what a draft records about one identity.
* `about_apply_self`, `about_apply_of_ne`: what one edit does to it; `about_applyAll`: what a run
  does.
* `Draft.edits_commute`: freezing does not tell apart runs with the same edits of each node.
-/

namespace ReplicaRing

variable {T : Type}

/-- The identity that an edit is about. -/
def Edit.subject : Edit T → NodeId
  | .add node _ | .addDerived node _ => node.id
  | .remove id | .move id _ | .relocate id _ => id

/-- Whether the edit names the tokens that it binds, if it binds any. -/
def Edit.isExplicit : Edit T → Bool
  | .addDerived _ _ => false
  | .add _ _ | .remove _ | .move _ _ | .relocate _ _ => true

namespace Draft

/-- What a draft records about an identity. -/
def about (d : Draft T) (id : NodeId) : Draft T :=
  ⟨d.nodes.filter fun n => decide (n.id = id), d.vnodes.filter fun v => decide (v.node = id)⟩

/-! ## One edit -/

section
variable (d : Draft T) {id id' : NodeId} (node : Node) (tokens : List T) (location : Location)

theorem filter_bound_self :
    ((tokens.map fun t => (⟨t, id⟩ : VirtualNode T)).filter fun v => decide (v.node = id)) =
      tokens.map fun t => ⟨t, id⟩ :=
  List.filter_eq_self.2 (by simp)

theorem filter_bound_of_ne (h : id' ≠ id) :
    ((tokens.map fun t => (⟨t, id'⟩ : VirtualNode T)).filter fun v => decide (v.node = id)) = [] :=
  List.filter_eq_nil_iff.2 (by simp [h])

/-- Dropping the entries of one identity leaves those of another. -/
theorem filter_ne_filter_eq {α : Type} (key : α → NodeId) (xs : List α) (h : id' ≠ id) :
    ((xs.filter fun x => decide (key x ≠ id')).filter fun x => decide (key x = id)) =
      xs.filter fun x => decide (key x = id) := by
  rw [List.filter_filter]
  refine List.filter_congr fun x _ => ?_
  by_cases hx : key x = id
  · simp [hx, h.symm]
  · simp [hx]

/-- Relocated nodes keep their identities. -/
theorem filter_relocated (nodes : List Node) (id id' : NodeId) :
    ((nodes.map fun n => if n.id = id' then { n with location } else n).filter fun n =>
        decide (n.id = id)) =
      (nodes.filter fun n => decide (n.id = id)).map fun n =>
        if n.id = id' then { n with location } else n := by
  rw [List.filter_map]
  refine congrArg _ (List.filter_congr fun n _ => ?_)
  rw [Function.comp_apply]
  split <;> rfl

theorem about_add_self : (d.add node tokens).about node.id = (d.about node.id).add node tokens := by
  simp only [about, add]
  rw [List.filter_append, List.filter_append, filter_bound_self, List.filter_singleton,
    decide_eq_true rfl]
  rfl

theorem about_add_of_ne (h : node.id ≠ id) : (d.add node tokens).about id = d.about id := by
  simp only [about, add]
  rw [List.filter_append, List.filter_append, filter_bound_of_ne tokens h, List.filter_singleton,
    decide_eq_false h, List.append_nil]
  exact congrArg (mk · _) (List.append_nil _)

theorem about_remove_self : (d.remove id).about id = (d.about id).remove id := by
  simp only [about, remove]
  rw [List.filter_comm, List.filter_comm (l := d.vnodes)]

theorem about_remove_of_ne (h : id' ≠ id) : (d.remove id').about id = d.about id := by
  simp only [about, remove]
  rw [filter_ne_filter_eq Node.id d.nodes h, filter_ne_filter_eq VirtualNode.node d.vnodes h]

theorem about_move_self : (d.move id tokens).about id = (d.about id).move id tokens := by
  simp only [about, move]
  rw [List.filter_append, List.filter_comm, filter_bound_self]

theorem about_move_of_ne (h : id' ≠ id) : (d.move id' tokens).about id = d.about id := by
  simp only [about, move]
  rw [List.filter_append, filter_ne_filter_eq VirtualNode.node d.vnodes h,
    filter_bound_of_ne tokens h, List.append_nil]

theorem about_relocate_self :
    (d.relocate id location).about id = (d.about id).relocate id location := by
  simp only [about, relocate]
  rw [filter_relocated]

theorem about_relocate_of_ne (h : id' ≠ id) : (d.relocate id' location).about id = d.about id := by
  simp only [about, relocate]
  rw [filter_relocated]
  refine congrArg (mk · _) ((List.map_congr_left fun n hn => if_neg fun hid => h ?_).trans
    (List.map_id _))
  exact hid.symm.trans (of_decide_eq_true (List.mem_filter.1 hn).2)

end

variable [Token T] (p : Partitioner T) (d : Draft T)

/-- **An edit about another identity** does not touch what is recorded about this one. -/
theorem about_apply_of_ne {e : Edit T} {id : NodeId} (h : e.subject ≠ id) :
    (d.apply p e).about id = d.about id := by
  cases e with
  | add node tokens => exact about_add_of_ne d node tokens h
  | addDerived node count => exact about_add_of_ne d node _ h
  | remove id' => exact about_remove_of_ne d h
  | move id' tokens => exact about_move_of_ne d tokens h
  | relocate id' location => exact about_relocate_of_ne d location h

/-- **An edit about this identity** works on what is recorded about it alone. -/
theorem about_apply_self {e : Edit T} (h : e.isExplicit = true) :
    (d.apply p e).about e.subject = (d.about e.subject).apply p e := by
  cases e with
  | add node tokens => exact about_add_self d node tokens
  | addDerived node count => cases h
  | remove id => exact about_remove_self d
  | move id tokens => exact about_move_self d tokens
  | relocate id location => exact about_relocate_self d location

/-! ## Runs -/

theorem about_applyAll {edits : List (Edit T)} (h : ∀ e ∈ edits, e.isExplicit = true)
    (id : NodeId) : (d.applyAll p edits).about id =
      (d.about id).applyAll p (edits.filter fun e => decide (e.subject = id)) := by
  induction edits generalizing d with
  | nil => rfl
  | cons e edits ih =>
    have hrest := ih (d.apply p e) fun e' he' => h e' (.tail _ he')
    change ((d.apply p e).applyAll p edits).about id = _
    rw [hrest, List.filter_cons]
    by_cases hid : e.subject = id
    · subst hid
      rw [about_apply_self p d (h e (.head _)), if_pos (decide_eq_true rfl)]
      rfl
    · rw [about_apply_of_ne p d hid, if_neg (by simpa using hid)]

/-- **Edits of different nodes commute.** If two runs have the same edits of each node in the same
order, then both drafts freeze, into one snapshot, or both are refused for one kind of fault. -/
theorem edits_commute {edits edits' : List (Edit T)} (hexplicit : ∀ e ∈ edits, e.isExplicit = true)
    (h : SameByKey Edit.subject edits edits') (epoch : Epoch) :
    ((d.applyAll p edits).freeze epoch).mapError TopologyError.kind =
      ((d.applyAll p edits').freeze epoch).mapError TopologyError.kind := by
  have hexplicit' : ∀ e ∈ edits', e.isExplicit = true := fun e he =>
    hexplicit e (h.perm.mem_iff.2 he)
  have habout : ∀ id, (d.applyAll p edits).about id = (d.applyAll p edits').about id := fun id => by
    rw [about_applyAll p d hexplicit, about_applyAll p d hexplicit', h id]
  have hnodes : SameByKey Node.id (d.applyAll p edits).nodes (d.applyAll p edits').nodes :=
    fun id => congrArg nodes (habout id)
  have hvnodes : SameByKey VirtualNode.node (d.applyAll p edits).vnodes
      (d.applyAll p edits').vnodes :=
    fun id => congrArg vnodes (habout id)
  exact freeze_perm hvnodes.perm hnodes.perm epoch

/-- The first node of the sample cluster takes over the token of the second one, which leaves before
or after that; in the latter case both claim the token for a while. -/
theorem edits_commute_fourNodes :
    let d := Snapshot.fourNodes.toDraft
    let leave : Edit LongToken := .remove 2
    let takeOver : Edit LongToken := .move 1 [⟨20⟩]
    let join : Edit LongToken := .add (Snapshot.numbered 5 "east" "b") [⟨10⟩]
    (∀ e ∈ [leave, takeOver, join], e.isExplicit = true) ∧
      SameByKey Edit.subject [leave, takeOver, join] [takeOver, join, leave] ∧
      ∃ s, (d.applyAll .hash [leave, takeOver, join]).freeze .zero = .ok s ∧
        (d.applyAll .hash [takeOver, join, leave]).freeze .zero = .ok s ∧
        s.ring.vnodes = [⟨⟨10⟩, 5⟩, ⟨⟨20⟩, 1⟩, ⟨⟨30⟩, 4⟩, ⟨⟨40⟩, 3⟩] := by
  intro d leave takeOver join
  have hexplicit : ∀ e ∈ [leave, takeOver, join], e.isExplicit = true := by decide
  have hsame : SameByKey Edit.subject [leave, takeOver, join] [takeOver, join, leave] :=
    (SameByKey.swap (by decide) [] [join]).trans (SameByKey.swap (by decide) [takeOver] [])
  have hboth := edits_commute .hash d hexplicit hsame .zero
  obtain ⟨s, hs⟩ : ∃ s, (d.applyAll .hash [leave, takeOver, join]).freeze .zero = .ok s :=
    isOk_iff.1 (by decide)
  obtain ⟨-, -, hv, -⟩ := freeze_eq_ok_iff.1 hs
  refine ⟨hexplicit, hsame, s, hs, ?_, hv.trans (by decide)⟩
  rw [hs] at hboth
  cases hs' : (d.applyAll .hash [takeOver, join, leave]).freeze .zero with
  | error e =>
    rw [hs'] at hboth
    cases hboth
  | ok s' =>
    rw [hs'] at hboth
    cases hboth
    rfl

end Draft

end ReplicaRing
