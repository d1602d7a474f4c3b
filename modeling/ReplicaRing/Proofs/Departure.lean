import Mathlib.Data.List.Perm.Subperm
import ReplicaRing.Proofs.Preference

/-!
# A node leaves a queue

Replicas go to the first `k` nodes of some queue. When a node leaves the cluster its queue closes
up (`Departure`): those before it stay, and those behind it move by one place at most. So one node
at most comes in anew among the first `k`, nobody else drops out, and nobody loses rank.

* `Departure.take_eq`, `Departure.mem_take`, `Departure.eq_of_new`, `Departure.idxOf_le`: what a
  departure means for the first `k` nodes.
* `departure_preference`: leaving a datacenter is a departure from its preference, also if another
  node gets to lead the rack of the one that left.
* `take_eligible_remove`: if a node gets no replica, what is placed of any part of the walk is the
  same without it.
-/

namespace ReplicaRing

section
variable {α : Type} [DecidableEq α] {n x y : α} {l l' : List α} {k : Nat}

/-- `l'` is the queue `l` after `n` has left it. -/
def Departure (n : α) (l l' : List α) : Prop :=
  ∃ before behind behind', l = before ++ n :: behind ∧ l' = before ++ behind' ∧
    behind'.Perm behind ∧ ∀ x, behind'.idxOf x ≤ behind.idxOf x + 1

theorem filter_ne_of_not_mem (h : n ∉ l) : (l.filter fun x => decide (x ≠ n)) = l :=
  List.filter_eq_self.2 fun _ hx => decide_eq_true fun e => h (e ▸ hx)

theorem filter_ne_split {a b : List α} (h : (a ++ n :: b).Nodup) :
    (a ++ n :: b).filter (fun x => decide (x ≠ n)) = a ++ b := by
  obtain ⟨-, hb, hd⟩ := List.nodup_append.1 h
  have ha : n ∉ a := fun hn => hd n hn n (.head _) rfl
  rw [List.filter_append, List.filter_cons_of_neg (by simp), filter_ne_of_not_mem ha,
    filter_ne_of_not_mem (List.nodup_cons.1 hb).1]

theorem take_filter_ne (h : n ∉ l.take k) :
    (l.filter fun x => decide (x ≠ n)).take k = l.take k := by
  conv => lhs; rw [← List.take_append_drop k l]
  rw [List.filter_append, filter_ne_of_not_mem h, List.take_append, List.take_take, Nat.min_self]
  by_cases hk : k ≤ l.length
  · rw [List.length_take, Nat.min_eq_left hk, Nat.sub_self, List.take_zero, List.append_nil]
  · rw [List.drop_of_length_le (by omega), List.filter_nil, List.take_nil, List.append_nil]

/-- The queue may just close up. -/
theorem Departure.filter (hl : l.Nodup) (hn : n ∈ l) :
    Departure n l (l.filter fun x => decide (x ≠ n)) := by
  obtain ⟨before, behind, rfl⟩ := List.append_of_mem hn
  rw [filter_ne_split hl]
  exact ⟨before, behind, behind, rfl, rfl, .refl _, fun x => Nat.le_succ _⟩

/-- One of those behind may move up to any place behind where `n` was. -/
theorem Departure.promote (n m : α) (a b c d : List α) :
    Departure n (a ++ n :: (b ++ (c ++ m :: d))) (a ++ (b ++ m :: (c ++ d))) := by
  refine ⟨a, _, _, rfl, rfl, List.perm_middle.symm.append_left b, fun x => ?_⟩
  simp only [List.idxOf_append, List.idxOf_cons, Bool.cond_eq_ite]
  split_ifs <;> omega

namespace Departure

theorem perm (h : Departure n l l') : l.Perm (n :: l') := by
  obtain ⟨before, behind, behind', rfl, rfl, hp, -⟩ := h
  exact List.perm_middle.trans ((hp.symm.append_left before).cons n)

theorem mem_iff (h : Departure n l l') (hl : l.Nodup) : x ∈ l' ↔ x ∈ l ∧ x ≠ n := by
  have hn := (List.nodup_cons.1 (h.perm.nodup_iff.1 hl)).1
  rw [h.perm.mem_iff, List.mem_cons]
  constructor
  · exact fun hx => ⟨.inr hx, fun e => hn (e ▸ hx)⟩
  · exact fun ⟨hx, hne⟩ => hx.resolve_left hne

/-- Nobody loses rank. -/
theorem idxOf_le (h : Departure n l l') (hx : x ≠ n) : l'.idxOf x ≤ l.idxOf x := by
  obtain ⟨before, behind, behind', rfl, rfl, -, hi⟩ := h
  have := hi x
  rw [List.idxOf_append, List.idxOf_append, List.idxOf_cons_ne _ hx.symm]
  split <;> omega

/-- Nothing changes among the first `k` if `n` was not one of them. -/
theorem take_eq (h : Departure n l l') (hn : n ∉ l.take k) : l'.take k = l.take k := by
  obtain ⟨before, behind, behind', rfl, rfl, -, -⟩ := h
  have hk : k ≤ before.length := by
    by_contra hk
    refine hn ?_
    rw [List.take_append]
    refine List.mem_append_right _ ?_
    obtain ⟨j, hj⟩ : ∃ j, k - before.length = j + 1 := ⟨k - before.length - 1, by omega⟩
    rw [hj]
    exact .head _
  rw [List.take_append_of_le_length hk, List.take_append_of_le_length hk]

/-- Nobody else drops out of the first `k`. -/
theorem mem_take (h : Departure n l l') (hl : l.Nodup) (hx : x ∈ l.take k) (hne : x ≠ n) :
    x ∈ l'.take k := by
  have hm := List.mem_of_mem_take hx
  have hlt := (List.mem_take_iff_idxOf_lt hm).1 hx
  have := h.idxOf_le hne
  exact (List.mem_take_iff_idxOf_lt ((h.mem_iff hl).2 ⟨hm, hne⟩)).2 (by omega)

/-- One at most comes in anew. -/
theorem eq_of_new (h : Departure n l l') (hl : l.Nodup) (hx : x ∈ l'.take k) (hx' : x ∉ l.take k)
    (hy : y ∈ l'.take k) (hy' : y ∉ l.take k) : x = y := by
  by_contra hxy
  -- the others stay, so with two newcomers there would be more than `k`
  have hsub : x :: y :: (l.take k).erase n ⊆ l'.take k := by
    intro z hz
    rcases List.mem_cons.1 hz with rfl | hz
    · exact hx
    rcases List.mem_cons.1 hz with rfl | hz
    · exact hy
    obtain ⟨hne, hz⟩ := ((hl.sublist (List.take_sublist k l)).mem_erase_iff).1 hz
    exact h.mem_take hl hz hne
  have hnodup : (x :: y :: (l.take k).erase n).Nodup := by
    have hx'' : x ∉ (l.take k).erase n := fun hm => hx' (List.mem_of_mem_erase hm)
    have hy'' : y ∉ (l.take k).erase n := fun hm => hy' (List.mem_of_mem_erase hm)
    simp only [List.nodup_cons, List.mem_cons, not_or]
    exact ⟨⟨hxy, hx''⟩, hy'', (hl.sublist (List.take_sublist k l)).erase n⟩
  have hlen := (List.subperm_of_subset hnodup hsub).length_le
  have hl' := h.perm.length_eq
  simp only [List.length_cons, List.length_erase, List.length_take] at hlen hl'
  split at hlen <;> omega

end Departure

end

namespace Placement

/-! ## Leading a rack -/

section
variable {a b ns : List Node} {n x : Node}

/-- Only one node leads a rack. -/
theorem leads_eq_false (h : leads ns n = true) (hr : x.rack = n.rack) (hx : x ≠ n) :
    leads ns x = false := by
  simp only [leads, decide_eq_true_eq] at h
  rw [leads, hr, h]
  simpa using hx.symm

/-- Whether a node leads its rack can only depend on one that stood before all others there. -/
theorem leads_remove (h : x.rack ≠ n.rack ∨ n.rack ∈ racksOf a) :
    leads (a ++ b) x = leads (a ++ n :: b) x := by
  unfold leads
  rw [List.find?_append, List.find?_append, List.find?_cons]
  by_cases hr : n.rack = x.rack
  · obtain ⟨m, hm, he⟩ := mem_racksOf.1 (h.resolve_left fun hne => hne hr.symm)
    have hs : (a.find? fun m => decide (m.rack = x.rack)).isSome := by
      rw [List.find?_isSome]
      exact ⟨m, hm, by simp [he, hr]⟩
    obtain ⟨m, hm⟩ := Option.isSome_iff_exists.1 hs
    rw [hm, Option.some_or, Option.some_or]
  · rw [decide_eq_false hr]

section
variable (hd : (a ++ n :: b).Nodup) (h : ∀ x ∈ a ++ b, leads (a ++ b) x = leads (a ++ n :: b) x)
include hd h

theorem leaders_remove :
    leaders (a ++ b) = (leaders (a ++ n :: b)).filter fun x => decide (x ≠ n) := by
  rw [leaders, leaders, List.filter_congr h, List.filter_comm, filter_ne_split hd]

theorem followers_remove :
    followers (a ++ b) = (followers (a ++ n :: b)).filter fun x => decide (x ≠ n) := by
  rw [followers, followers, List.filter_congr fun x hx => by rw [h x hx], List.filter_comm,
    filter_ne_split hd]

end

/-- All others keep their part: the queue closes up. -/
theorem departure_close (hd : (a ++ n :: b).Nodup)
    (h : ∀ x ∈ a ++ b, leads (a ++ b) x = leads (a ++ n :: b) x) :
    Departure n (preference (a ++ n :: b)) (preference (a ++ b)) := by
  have hp : preference (a ++ b) = (preference (a ++ n :: b)).filter fun x => decide (x ≠ n) := by
    rw [preference, leaders_remove hd h, followers_remove hd h, ← List.filter_append]
    rfl
  rw [hp]
  exact .filter (nodup_preference hd) ((preference_perm _).mem_iff.2 (by simp))

/-- One follower becomes a leader: it moves up. -/
theorem departure_promote {c d : List Node} {m : Node} (hd : (a ++ n :: (c ++ m :: d)).Nodup)
    (hn : leads (a ++ n :: (c ++ m :: d)) n = true) (hm : leads (a ++ n :: (c ++ m :: d)) m = false)
    (hm' : leads (a ++ (c ++ m :: d)) m = true)
    (h : ∀ x, x ≠ n → x ≠ m → leads (a ++ (c ++ m :: d)) x = leads (a ++ n :: (c ++ m :: d)) x) :
    Departure n (preference (a ++ n :: (c ++ m :: d))) (preference (a ++ (c ++ m :: d))) := by
  obtain ⟨hn', hd'⟩ := List.nodup_cons.1 (List.nodup_middle.1 hd)
  rw [← List.append_assoc] at hd'
  have hm'' := (List.nodup_cons.1 (List.nodup_middle.1 hd')).1
  have hsame : ∀ x ∈ a ++ (c ++ d),
      leads (a ++ (c ++ m :: d)) x = leads (a ++ n :: (c ++ m :: d)) x := fun x hx => by
    simp only [List.mem_append, List.mem_cons] at hx hn' hm''
    refine h x (fun e => hn' ?_) (fun e => hm'' ?_)
    · rw [← e]
      tauto
    · rw [← e]
      tauto
  simp only [List.forall_mem_append] at hsame
  obtain ⟨ha, hc, hd⟩ := hsame
  unfold preference leaders followers
  generalize leads (a ++ n :: (c ++ m :: d)) = before at *
  generalize leads (a ++ (c ++ m :: d)) = after at *
  have hkept : ∀ part : List Node, (∀ x ∈ part, after x = before x) →
      part.filter after = part.filter before ∧
        (part.filter fun x => !after x) = part.filter fun x => !before x := fun part hp =>
    ⟨List.filter_congr hp, List.filter_congr fun x hx => by rw [hp x hx]⟩
  have hmove := Departure.promote n m (a.filter before) (c.filter before)
    (d.filter before ++ ((a.filter fun x => !before x) ++ c.filter fun x => !before x))
    (d.filter fun x => !before x)
  simpa [List.filter_cons, hn, hm, hm', hkept a ha, hkept c hc, hkept d hd] using hmove

/-- **Leaving a datacenter is a departure** from its preference. -/
theorem departure_preference (hd : (a ++ n :: b).Nodup) :
    Departure n (preference (a ++ n :: b)) (preference (a ++ b)) := by
  by_cases ha : n.rack ∈ racksOf a
  · exact departure_close hd fun x _ => leads_remove (.inr ha)
  have hna : n ∉ a := fun hm => ha (mem_racksOf.2 ⟨n, hm, rfl⟩)
  cases hf : b.find? fun m => decide (m.rack = n.rack) with
  | none =>
    refine departure_close hd fun x hx => leads_remove (.inl fun e => ?_)
    rcases List.mem_append.1 hx with hx | hx
    · exact ha (mem_racksOf.2 ⟨x, hx, e⟩)
    · exact absurd e (by simpa using List.find?_eq_none.1 hf x hx)
  | some m =>
    -- the rack of `n` goes to the next node there
    obtain ⟨hm, c, d, rfl, hc⟩ := List.find?_eq_some_iff_append.1 hf
    replace hm : m.rack = n.rack := by simpa using hm
    have hmc : m.rack ∉ racksOf (a ++ c) := fun hr => by
      obtain ⟨x, hx, he⟩ := mem_racksOf.1 hr
      rcases List.mem_append.1 hx with hx | hx
      · exact ha (mem_racksOf.2 ⟨x, hx, he.trans hm⟩)
      · exact absurd (he.trans hm) (by simpa using hc x hx)
    have hmem : m ∉ a ++ c := fun hm' => hmc (mem_racksOf.2 ⟨m, hm', rfl⟩)
    have hn : leads (a ++ n :: (c ++ m :: d)) n = true := by rw [leads_split hna, decide_eq_true ha]
    have hm' : leads (a ++ (c ++ m :: d)) m = true := by
      rw [← List.append_assoc, leads_split hmem, decide_eq_true hmc]
    have hne : m ≠ n := by
      rintro rfl
      exact (List.nodup_cons.1 (List.nodup_append.1 hd).2.1).1 (by simp)
    refine departure_promote hd hn (leads_eq_false hn hm hne) hm' fun x hxn hxm => ?_
    by_cases hr : x.rack = n.rack
    · rw [leads_eq_false hn hr hxn, leads_eq_false hm' (hr.trans hm.symm) hxm]
    · exact leads_remove (.inl hr)

/-! ## Part of a walk -/

theorem eligible_append {racks : Finset String} {c : List Node} (hd : (a ++ c).Nodup)
    (hr : ∀ x ∈ c, x.rack ∈ racks) : eligible racks a <+: eligible racks (a ++ c) := by
  induction c using List.reverseRecOn with
  | nil => rw [List.append_nil]
  | append_singleton c x ih =>
    rw [← List.append_assoc] at hd ⊢
    obtain ⟨hac, hx⟩ := nodup_concat_iff.1 hd
    have hac := ih hac fun y hy => hr y (List.mem_append_left _ hy)
    exact hac.trans (eligible_grows hx (hr x (by simp)))

/-- A leader that is not among the first `k` stands behind `k` leaders. -/
theorem le_length_leaders {k : Nat} (hk : n ∉ (preference (a ++ n :: b)).take k)
    (hr : n.rack ∉ racksOf a) : k ≤ (leaders a).length := by
  have hna : n ∉ a := fun hm => hr (mem_racksOf.2 ⟨n, hm, rfl⟩)
  have hsplit : leaders (a ++ n :: b) = leaders a ++ n :: b.filter (leads (a ++ n :: b)) := by
    rw [leaders_append, List.filter_cons_of_pos]
    rw [leads_split hna, decide_eq_true hr]
  by_contra hlt
  have hnk : n ∈ (leaders (a ++ n :: b)).take k := by
    rw [hsplit, List.mem_take_iff_idxOf_lt (by simp), List.idxOf_append_of_notMem,
      List.idxOf_cons_self]
    · omega
    · exact fun hm => hna (List.mem_of_mem_filter hm)
  rw [preference, List.take_append] at hk
  exact hk (List.mem_append_left _ hnk)

/-- Once there are `k` leaders, nothing can come in before them. -/
theorem take_eligible_append {k : Nat} (hk : k ≤ (leaders a).length) (racks : Finset String)
    (c : List Node) : (eligible racks (a ++ c)).take k = (leaders a).take k := by
  rw [eligible, leaders_append, List.append_assoc, List.take_append_of_le_length hk]

theorem racksOf_remove (h : n.rack ∈ racksOf a) : racksOf (a ++ b) = racksOf (a ++ n :: b) := by
  rw [racksOf_append, racksOf_append, racksOf_cons, Finset.union_insert,
    Finset.insert_eq_of_mem (Finset.mem_union_left _ h)]

theorem eligible_remove (hd : (a ++ n :: b).Nodup) (hr : n.rack ∈ racksOf a)
    (racks : Finset String) : eligible racks (a ++ b) =
      (eligible racks (a ++ n :: b)).filter fun x => decide (x ≠ n) := by
  have h : ∀ x ∈ a ++ b, leads (a ++ b) x = leads (a ++ n :: b) x := fun x _ =>
    leads_remove (.inr hr)
  rw [eligible, eligible, racksOf_remove hr, List.filter_append, leaders_remove hd h]
  split
  · rw [followers_remove hd h]
  · rw [List.filter_nil]

end

section
variable {a b ns : List Node} {n : Node} {k : Nat} (hd : (a ++ n :: b).Nodup)
  (hk : n ∉ (preference (a ++ n :: b)).take k) (hns : ns <+: a ++ n :: b)
include hd hk hns

/-- A node that follows another of its rack. -/
theorem take_eligible_remove_follower (hr : n.rack ∈ racksOf a) :
    (eligible (racksOf (a ++ b)) (ns.filter fun x => decide (x ≠ n))).take k =
      (eligible (racksOf (a ++ n :: b)) ns).take k := by
  rw [racksOf_remove hr]
  by_cases hn : n ∉ ns
  · rw [filter_ne_of_not_mem hn]
  rw [not_not] at hn
  have hna : n ∉ a := fun hm =>
    (List.nodup_cons.1 (List.nodup_middle.1 hd)).1 (List.mem_append_left _ hm)
  obtain ⟨c, rfl⟩ : ∃ c, ns = a ++ n :: c := by
    rcases List.prefix_or_prefix_of_prefix hns (List.prefix_append a (n :: b)) with h | ⟨c, rfl⟩
    · exact absurd (h.subset hn) hna
    rcases List.prefix_cons_iff.1 ((List.prefix_append_right_inj a).1 hns) with rfl | ⟨c, rfl, -⟩
    · exact absurd hn (by simpa using hna)
    · exact ⟨c, rfl⟩
  have hdc : (a ++ n :: c).Nodup := hd.sublist hns.sublist
  have hpre : eligible (racksOf (a ++ n :: b)) (a ++ n :: c) <+: preference (a ++ n :: b) := by
    obtain ⟨e, he⟩ := hns
    rw [← eligible_eq_preference, ← he]
    exact eligible_append (he ▸ hd) fun x hx => mem_racksOf.2 ⟨x, List.mem_append_right _ hx, rfl⟩
  rw [filter_ne_split hdc, eligible_remove hdc hr, take_filter_ne]
  exact fun hm => hk ((hpre.take k).subset hm)

/-- A node that leads its rack: `k` leaders stand before it. -/
theorem take_eligible_remove_leader (hr : n.rack ∉ racksOf a) :
    (eligible (racksOf (a ++ b)) (ns.filter fun x => decide (x ≠ n))).take k =
      (eligible (racksOf (a ++ n :: b)) ns).take k := by
  have hna : n ∉ a := fun hm => hr (mem_racksOf.2 ⟨n, hm, rfl⟩)
  have hlead := le_length_leaders hk hr
  rcases List.prefix_or_prefix_of_prefix hns (List.prefix_append a (n :: b)) with h | h
  · have hn : n ∉ ns := fun hm => hna (h.subset hm)
    have hne : racksOf ns ≠ racksOf (a ++ n :: b) := fun e => hr (racksOf_subset h.subset (by
      rw [e]
      exact mem_racksOf.2 ⟨n, by simp, rfl⟩))
    rw [filter_ne_of_not_mem hn, eligible, eligible, if_neg hne, List.append_nil]
    split
    · -- the rack of `n` is gone, and all other racks are led by `ns` already
      rename_i he
      refine List.take_append_of_le_length (hlead.trans ?_)
      rw [length_leaders (hd.sublist (List.sublist_append_left _ _)),
        length_leaders (hd.sublist hns.sublist), he, racksOf_append]
      exact Finset.card_le_card Finset.subset_union_left
    · rw [List.append_nil]
  · obtain ⟨c, rfl⟩ := h
    rw [List.filter_append, filter_ne_of_not_mem hna,
      take_eligible_append hlead, take_eligible_append hlead]

end

/-- **Without a node that gets no replica**, the same is placed of any part of the walk. -/
theorem take_eligible_remove {all ns : List Node} {n : Node} {k : Nat} (hd : all.Nodup)
    (hk : n ∉ (preference all).take k) (hns : ns <+: all) :
    (eligible (racksOf (all.filter fun x => decide (x ≠ n)))
      (ns.filter fun x => decide (x ≠ n))).take k = (eligible (racksOf all) ns).take k := by
  by_cases hn : n ∈ all
  · obtain ⟨a, b, rfl⟩ := List.append_of_mem hn
    rw [filter_ne_split hd]
    by_cases hr : n.rack ∈ racksOf a
    · exact take_eligible_remove_follower hd hk hns hr
    · exact take_eligible_remove_leader hd hk hns hr
  · rw [filter_ne_of_not_mem hn, filter_ne_of_not_mem fun hm => hn (hns.subset hm)]

end Placement

end ReplicaRing
