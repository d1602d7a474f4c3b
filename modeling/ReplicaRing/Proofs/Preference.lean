import Mathlib.Data.List.Infix
import ReplicaRing.Proofs.Members

/-!
# The order of preference in a datacenter

Of the nodes of one datacenter, listed as a walk meets them, the first on each rack come first and
the others after them (`preference`). While a walk is under way only a part of that order can be
acted upon: the nodes that stay behind an earlier one of their rack have to wait until all racks
have been met (`eligible`).

* `leaders_concat`, `followers_concat`: what one more node does to the two parts.
* `eligible_concat`: what one more node makes eligible; nothing ceases to be (`eligible_grows`).
* `card_racksOf_take_preference`: the first nodes of the order stand on as many racks as they can.
-/

namespace ReplicaRing

theorem nodup_concat_iff {α : Type} {xs : List α} {x : α} :
    (xs ++ [x]).Nodup ↔ xs.Nodup ∧ x ∉ xs := by
  rw [← List.concat_eq_append, List.nodup_concat, and_comm]

namespace Placement

/-- Whether a node of the list is the first on its rack. -/
def leads (ns : List Node) (n : Node) : Bool :=
  decide (ns.find? (fun m => decide (m.rack = n.rack)) = some n)

/-- The nodes whose rack does not occur earlier in the list. -/
def leaders (ns : List Node) : List Node := ns.filter (leads ns)

/-- The nodes whose rack occurs earlier in the list. -/
def followers (ns : List Node) : List Node := ns.filter fun n => !leads ns n

/-- The nodes in the order in which replicas go to them. -/
def preference (ns : List Node) : List Node := leaders ns ++ followers ns

/-- The nodes that can be placed when a walk has met `ns` of a datacenter with these racks. -/
def eligible (racks : Finset String) (ns : List Node) : List Node :=
  leaders ns ++ if racksOf ns = racks then followers ns else []

/-! ## One more node -/

theorem leads_append {a : List Node} {n : Node} (h : n ∈ a) (b : List Node) :
    leads (a ++ b) n = leads a n := by
  have hs : (a.find? fun m => decide (m.rack = n.rack)).isSome := by
    rw [List.find?_isSome]
    exact ⟨n, h, by simp⟩
  obtain ⟨m, hm⟩ := Option.isSome_iff_exists.1 hs
  simp only [leads, List.find?_append, hm, Option.some_or]

theorem leads_concat {a : List Node} {n : Node} (h : n ∉ a) :
    leads (a ++ [n]) n = decide (n.rack ∉ racksOf a) := by
  unfold leads
  rw [List.find?_append]
  cases hf : a.find? fun m => decide (m.rack = n.rack) with
  | none =>
    have hr : n.rack ∉ racksOf a := by
      rintro hr
      obtain ⟨m, hm, he⟩ := mem_racksOf.1 hr
      exact absurd he (by simpa using List.find?_eq_none.1 hf m hm)
    simp [hr]
  | some m =>
    have hm : m ∈ a := List.mem_of_find?_eq_some hf
    have he : m.rack = n.rack := by simpa using List.find?_some hf
    have hr : n.rack ∈ racksOf a := mem_racksOf.2 ⟨m, hm, he⟩
    have hne : m ≠ n := fun e => h (e ▸ hm)
    simp [hr, hne]

/-- A node leads its rack if no node before it stands there. -/
theorem leads_split {a b : List Node} {n : Node} (h : n ∉ a) :
    leads (a ++ n :: b) n = decide (n.rack ∉ racksOf a) := by
  rw [← leads_concat h, ← leads_append (a := a ++ [n]) (by simp) b, List.append_assoc]
  rfl

/-- The nodes met so far keep their part in a longer list. -/
theorem leaders_append (a b : List Node) :
    leaders (a ++ b) = leaders a ++ b.filter (leads (a ++ b)) := by
  rw [leaders, List.filter_append]
  exact congrArg (· ++ _) (List.filter_congr fun n hn => leads_append hn b)

theorem followers_append (a b : List Node) :
    followers (a ++ b) = followers a ++ b.filter fun n => !leads (a ++ b) n := by
  rw [followers, List.filter_append]
  exact congrArg (· ++ _) (List.filter_congr fun n hn => by rw [leads_append hn b])

theorem leaders_concat {a : List Node} {n : Node} (h : n ∉ a) :
    leaders (a ++ [n]) = leaders a ++ if n.rack ∈ racksOf a then [] else [n] := by
  rw [leaders_append, List.filter_singleton, leads_concat h]
  by_cases hr : n.rack ∈ racksOf a <;> simp [hr]

theorem followers_concat {a : List Node} {n : Node} (h : n ∉ a) :
    followers (a ++ [n]) = followers a ++ if n.rack ∈ racksOf a then [n] else [] := by
  rw [followers_append, List.filter_singleton, leads_concat h]
  by_cases hr : n.rack ∈ racksOf a <;> simp [hr]

section
variable {racks : Finset String} {a : List Node} {n : Node}

/-- What one more node makes eligible: itself, once all racks are met or if its rack is new; and
all that had to wait, if its rack was the last one missing. -/
theorem eligible_concat (h : n ∉ a) (hr : n.rack ∈ racks) :
    eligible racks (a ++ [n]) = eligible racks a ++
      if racksOf a = racks then [n]
      else if n.rack ∈ racksOf a then []
      else n :: if insert n.rack (racksOf a) = racks then followers a else [] := by
  unfold eligible
  rw [racksOf_concat, leaders_concat h, followers_concat h]
  by_cases hc : racksOf a = racks
  · simp [hc, hr]
  · by_cases hm : n.rack ∈ racksOf a
    · simp [hc, hm]
    · by_cases hi : insert n.rack (racksOf a) = racks <;> simp [hc, hm, hi]

theorem eligible_grows (h : n ∉ a) (hr : n.rack ∈ racks) :
    eligible racks a <+: eligible racks (a ++ [n]) := by
  rw [eligible_concat h hr]
  exact List.prefix_append _ _

end

theorem eligible_eq_preference (ns : List Node) : eligible (racksOf ns) ns = preference ns := by
  simp [eligible, preference]

theorem preference_perm (ns : List Node) : (preference ns).Perm ns :=
  List.filter_append_perm _ ns

theorem nodup_preference {ns : List Node} (h : ns.Nodup) : (preference ns).Nodup :=
  (preference_perm ns).nodup_iff.2 h

theorem eligible_prefix_preference (racks : Finset String) (ns : List Node) :
    eligible racks ns <+: preference ns := by
  unfold eligible preference
  split
  · exact List.prefix_rfl
  · rw [List.append_nil]
    exact List.prefix_append _ _

theorem eligible_subset (racks : Finset String) (ns : List Node) : eligible racks ns ⊆ ns :=
  fun _ hn => (preference_perm ns).mem_iff.1 ((eligible_prefix_preference racks ns).subset hn)

theorem nodup_eligible (racks : Finset String) {ns : List Node} (h : ns.Nodup) :
    (eligible racks ns).Nodup :=
  (nodup_preference h).sublist (eligible_prefix_preference racks ns).sublist

theorem length_eligible_le (racks : Finset String) (ns : List Node) :
    (eligible racks ns).length ≤ ns.length := by
  rw [← (preference_perm ns).length_eq]
  exact (eligible_prefix_preference racks ns).length_le

/-! ## Racks -/

/-- The racks of the leaders are the racks of all nodes, each once. -/
theorem rack_leaders {ns : List Node} (h : ns.Nodup) :
    ((leaders ns).map Node.rack).Nodup ∧ racksOf (leaders ns) = racksOf ns := by
  induction ns using List.reverseRecOn with
  | nil => exact ⟨List.nodup_nil, rfl⟩
  | append_singleton a n ih =>
    obtain ⟨ha, hn⟩ := nodup_concat_iff.1 h
    obtain ⟨h1, h2⟩ := ih ha
    rw [leaders_concat hn]
    split
    · rename_i hr
      rw [List.append_nil, racksOf_concat, Finset.insert_eq_of_mem hr]
      exact ⟨h1, h2⟩
    · rename_i hr
      rw [racksOf_concat, racksOf_concat, h2]
      refine ⟨?_, rfl⟩
      rw [List.map_append, List.map_singleton, nodup_concat_iff]
      refine ⟨h1, fun hm => hr ?_⟩
      rw [← h2, racksOf, List.mem_toFinset]
      exact hm

theorem length_leaders {ns : List Node} (h : ns.Nodup) :
    (leaders ns).length = (racksOf ns).card := by
  obtain ⟨h1, h2⟩ := rack_leaders h
  rw [← h2, racksOf, List.toFinset_card_of_nodup h1, List.length_map]

/-- **The first nodes of the preference stand on as many racks as so many nodes can.** -/
theorem card_racksOf_take_preference {ns : List Node} (h : ns.Nodup) (k : Nat) :
    (racksOf ((preference ns).take k)).card = min k (racksOf ns).card := by
  obtain ⟨h1, h2⟩ := rack_leaders h
  rw [preference, List.take_append]
  rcases Nat.le_total k (leaders ns).length with hk | hk
  · have h3 : (((leaders ns).take k).map Node.rack).Nodup := by
      rw [List.map_take]
      exact h1.sublist (List.take_sublist _ _)
    rw [Nat.sub_eq_zero_of_le hk, List.take_zero, List.append_nil, racksOf,
      List.toFinset_card_of_nodup h3, List.length_map, List.length_take, length_leaders h]
  · have h3 :
        racksOf (leaders ns ++ (followers ns).take (k - (leaders ns).length)) = racksOf ns := by
      refine Finset.Subset.antisymm (racksOf_subset fun m hm => ?_) ?_
      · rw [← (preference_perm ns).mem_iff]
        rcases List.mem_append.1 hm with hm | hm
        · exact List.mem_append_left _ hm
        · exact List.mem_append_right _ (List.mem_of_mem_take hm)
      · rw [racksOf_append, h2]
        exact Finset.subset_union_left
    rw [List.take_of_length_le hk, h3, ← length_leaders h, Nat.min_eq_right hk]

end Placement

end ReplicaRing
