import Mathlib.Data.List.Rotate
import ReplicaRing.TokenRing

/-!
# The order of a ring walk

A walk counts indices on from where it began, modulo the size of the ring, so what lies ahead of it
is the rest of a rotation (`Walk.ahead_eq_drop_rotate`). It yields the owners of the ring's tokens
by their first tokens, read from the search token once around (`TokenRing.toList_walk`). It
therefore yields each owner exactly once, and a ring that lost the tokens of some owners is walked
as before without them (`TokenRing.toList_walk_filter`).
-/

namespace ReplicaRing

/-! ## First occurrences -/

section
variable {α : Type} [BEq α] [LawfulBEq α]

theorem nodup_eraseDups : ∀ l : List α, l.eraseDups.Nodup
  | [] => List.nodup_nil
  | a :: l => by
    rw [List.eraseDups_cons, List.nodup_cons, List.mem_eraseDups]
    exact ⟨by simp, nodup_eraseDups _⟩
termination_by l => l.length
decreasing_by exact Nat.lt_succ_of_le (List.length_filter_le _ _)

omit [LawfulBEq α] in
theorem head?_eraseDups (l : List α) : l.eraseDups.head? = l.head? := by
  cases l with
  | nil => rfl
  | cons a l => rw [List.eraseDups_cons, List.head?_cons, List.head?_cons]

/-- First occurrences are kept or dropped like the elements they are occurrences of. -/
theorem eraseDups_filter (p : α → Bool) : ∀ l : List α,
    (l.filter p).eraseDups = l.eraseDups.filter p
  | [] => rfl
  | a :: l => by
    have ih := eraseDups_filter p (l.filter fun b => !b == a)
    rw [List.filter_filter] at ih
    rw [List.eraseDups_cons, List.filter_cons, List.filter_cons]
    split
    · rw [List.eraseDups_cons, List.filter_filter, ← ih]
      simp only [Bool.and_comm]
    · rename_i ha
      rw [← ih]
      congr 1
      refine List.filter_congr fun b _ => ?_
      by_cases hb : b = a
      · simp [hb, ha]
      · simp [hb]
termination_by l => l.length
decreasing_by exact Nat.lt_succ_of_le (List.length_filter_le _ _)

end

/-! ## Around the ring -/

/-- **What lies ahead of a walk** is what it has not visited of the ring rotated to its first
token. -/
theorem Walk.ahead_eq_drop_rotate (w : Walk) :
    w.ahead = (w.ring.rotate w.first).drop w.visited := by
  induction hleft : w.left generalizing w with
  | zero =>
    have hle : (w.ring.rotate w.first).length ≤ w.visited := by
      rw [List.length_rotate]
      exact Nat.le_of_sub_eq_zero hleft
    rw [ahead, hleft, List.drop_eq_nil_of_le hle]
    rfl
  | succ left ih =>
    obtain ⟨id, hid, ha⟩ := ahead_of_left hleft
    have hlt : w.visited < w.ring.length := by
      unfold Walk.left at hleft
      omega
    have hget : (w.ring.rotate w.first)[w.visited]? = some id := by
      rw [List.getElem?_rotate hlt, Nat.add_comm]
      exact hid
    obtain ⟨hv, hget⟩ := List.getElem?_eq_some_iff.1 hget
    rw [ha, ih w.pass (by rw [left_pass, hleft]; rfl), List.drop_eq_getElem_cons hv, hget]
    rfl

/-! ## The tokens below and from a token -/

section
variable {α K : Type} [LE K] [LT K] [DecidableLT K] [Std.IsLinearOrder K] [Std.LawfulOrderLT K]

/-- The start of an ascending list up to a key holds all lower keys. -/
theorem Ascending.takeWhile_lt {key : α → K} {xs : List α} (h : Ascending key xs) (k : K) :
    (xs.takeWhile fun x => decide (key x < k)) = xs.filter fun x => decide (key x < k) := by
  induction xs with
  | nil => rfl
  | cons x xs ih =>
    obtain ⟨hx, hs⟩ := List.pairwise_cons.1 h
    rw [List.takeWhile_cons, List.filter_cons]
    split
    · rw [ih hs]
    · rename_i hk
      refine (List.filter_eq_nil_iff.2 fun y hy => ?_).symm
      have := hx y hy
      simp only [decide_eq_true_eq] at hk ⊢
      grind

theorem Ascending.dropWhile_lt {key : α → K} {xs : List α} (h : Ascending key xs) (k : K) :
    (xs.dropWhile fun x => decide (key x < k)) = xs.filter fun x => decide (¬ key x < k) := by
  induction xs with
  | nil => rfl
  | cons x xs ih =>
    obtain ⟨hx, hs⟩ := List.pairwise_cons.1 h
    rw [List.dropWhile_cons, List.filter_cons]
    by_cases hk : key x < k
    · rw [if_pos (by simpa using hk), if_neg (by simpa using hk), ih hs]
    · rw [if_neg (by simpa using hk), if_pos (by simpa using hk)]
      congr 1
      refine (List.filter_eq_self.2 fun y hy => ?_).symm
      have := hx y hy
      simp only [decide_eq_true_eq]
      grind

end

namespace TokenRing

variable {T : Type} [Token T]

/-- The virtual nodes as a search from `t` meets them: those from `t` on, then those below. -/
def vnodesFrom (r : TokenRing T) (t : T) : List (VirtualNode T) :=
  (r.vnodes.filter fun v => decide (¬ v.token < t)) ++ r.vnodes.filter fun v => decide (v.token < t)

theorem vnodesFrom_perm (r : TokenRing T) (t : T) : (r.vnodesFrom t).Perm r.vnodes := by
  refine List.perm_append_comm.trans ?_
  simpa only [decide_not] using List.filter_append_perm (fun v => decide (v.token < t)) r.vnodes

/-- Rotating the ring to the first token from `t` on, or not at all if there is none. -/
theorem rotate_owners (r : TokenRing T) (t : T) :
    r.owners.rotate ((r.firstIndex? t).getD 0) = (r.vnodesFrom t).map VirtualNode.node := by
  have hsplit : r.vnodes.take (r.countBelow t) = (r.vnodes.filter fun v => decide (v.token < t)) ∧
      r.vnodes.drop (r.countBelow t) = r.vnodes.filter fun v => decide (¬ v.token < t) := by
    rw [← r.ascending.takeWhile_lt, ← r.ascending.dropWhile_lt]
    have h := List.takeWhile_append_dropWhile (p := fun v => decide (v.token < t)) (l := r.vnodes)
    exact ⟨(congrArg (List.take _) h.symm).trans List.take_left,
      (congrArg (List.drop _) h.symm).trans List.drop_left⟩
  have hle : r.countBelow t ≤ r.owners.length := by
    rw [owners, List.length_map]
    exact (List.takeWhile_prefix _).length_le
  have hcut : r.owners.rotate (r.countBelow t) = (r.vnodesFrom t).map VirtualNode.node := by
    rw [List.rotate_eq_drop_append_take hle, owners, ← List.map_drop, ← List.map_take, hsplit.1,
      hsplit.2, vnodesFrom, List.map_append]
  unfold firstIndex?
  split
  · rename_i h0
    have hn : r.vnodes = [] := List.eq_nil_of_length_eq_zero h0
    simp [owners, vnodesFrom, hn]
  · simp only [Option.getD_some]
    split
    · rename_i hc
      -- every token is below `t`, so the rotation is once around
      have hl : r.owners.length = r.countBelow t := by rw [hc, owners, List.length_map, size]
      rw [← hcut, ← hl, List.rotate_length, List.rotate_zero]
    · exact hcut

theorem nodeCount_eq (r : TokenRing T) (t : T) :
    r.nodeCount = ((r.vnodesFrom t).map VirtualNode.node).eraseDups.length := by
  have hp : ((r.vnodesFrom t).map VirtualNode.node).Perm r.owners := (r.vnodesFrom_perm t).map _
  refine List.Perm.length_eq ?_
  rw [List.perm_ext_iff_of_nodup (nodup_eraseDups _) (nodup_eraseDups _)]
  intro id
  rw [List.mem_eraseDups, List.mem_eraseDups, hp.mem_iff]

/-- **A walk yields the owners in the order in which their first tokens are met.** -/
theorem toList_walk (r : TokenRing T) (t : T) :
    (r.walk t).toList = ((r.vnodesFrom t).map VirtualNode.node).eraseDups := by
  rw [walk, r.nodeCount_eq t]
  refine Walk.toList_start _ _ (congrArg List.eraseDups ?_)
  rw [Walk.ahead_eq_drop_rotate]
  exact r.rotate_owners t

theorem length_toList_walk (r : TokenRing T) (t : T) : (r.walk t).toList.length = r.nodeCount := by
  rw [toList_walk, nodeCount_eq r t]

theorem nodup_toList_walk (r : TokenRing T) (t : T) : (r.walk t).toList.Nodup := by
  rw [toList_walk]
  exact nodup_eraseDups _

theorem mem_toList_walk {r : TokenRing T} {t : T} {id : NodeId} :
    id ∈ (r.walk t).toList ↔ id ∈ r.nodes := by
  rw [toList_walk, List.mem_eraseDups, List.mem_map, mem_nodes]
  simp only [(r.vnodesFrom_perm t).mem_iff]

/-- **Owners that lose all their tokens drop out of every walk** and change nothing else in it. -/
theorem toList_walk_filter {r r' : TokenRing T} {keep : NodeId → Bool}
    (h : r'.vnodes = r.vnodes.filter fun v => keep v.node) (t : T) :
    (r'.walk t).toList = (r.walk t).toList.filter keep := by
  have hv : r'.vnodesFrom t = (r.vnodesFrom t).filter fun v => keep v.node := by
    simp only [vnodesFrom, h, List.filter_append, List.filter_filter, Bool.and_comm]
  rw [toList_walk, toList_walk, hv, ← eraseDups_filter, List.filter_map]
  rfl

end TokenRing

end ReplicaRing
