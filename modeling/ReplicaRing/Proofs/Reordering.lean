import Mathlib.Data.List.Basic
import ReplicaRing.Ascending

/-!
# Lists that agree key by key

Two lists may hold the same elements and list the elements of different keys in different order,
while those of one key stand in the same order in both (`SameByKey`).

* `SameByKey.append`, `SameByKey.filter`: what is done to both lists keeps them so.
* `SameByKey.swap`: so does an exchange of two neighbours with different keys.
* `SameByKey.perm`: they are permutations of each other.
* `sameByKey_sortOn`, `SameByKey.sortOn_eq`: sorting by the key is stable, so its result is all that
  such lists have in common.
-/

namespace ReplicaRing

/-- The elements with each key are the same in both lists, and in the same order. -/
def SameByKey {α K : Type} [DecidableEq K] (key : α → K) (xs ys : List α) : Prop :=
  ∀ k, (xs.filter fun x => decide (key x = k)) = ys.filter fun x => decide (key x = k)

section
variable {α K : Type} [DecidableEq K] {key : α → K} {xs xs' ys ys' : List α}

namespace SameByKey

theorem refl (key : α → K) (xs : List α) : SameByKey key xs xs := fun _ => rfl

theorem symm (h : SameByKey key xs ys) : SameByKey key ys xs := fun k => (h k).symm

theorem trans {zs : List α} (h : SameByKey key xs ys) (h' : SameByKey key ys zs) :
    SameByKey key xs zs := fun k => (h k).trans (h' k)

theorem append (h : SameByKey key xs ys) (h' : SameByKey key xs' ys') :
    SameByKey key (xs ++ xs') (ys ++ ys') := fun k => by
  rw [List.filter_append, List.filter_append, h k, h' k]

theorem filter (h : SameByKey key xs ys) (p : α → Bool) :
    SameByKey key (xs.filter p) (ys.filter p) := fun k => by
  rw [List.filter_comm, h k, List.filter_comm]

/-- Neighbours with different keys may be exchanged. -/
theorem swap {x y : α} (h : key x ≠ key y) (xs ys : List α) :
    SameByKey key (xs ++ x :: y :: ys) (xs ++ y :: x :: ys) := by
  refine (refl key xs).append fun k => ?_
  by_cases hx : key x = k
  · have hy : key y ≠ k := fun hy => h (hx.trans hy.symm)
    simp [hx, hy]
  · simp [List.filter_cons, hx]

theorem perm (h : SameByKey key xs ys) : xs.Perm ys := by
  classical
  rw [List.perm_iff_count]
  intro a
  have hcount : ∀ l : List α, (l.filter fun x => decide (key x = key a)).count a = l.count a :=
    fun l => List.count_filter (by simp)
  rw [← hcount xs, h (key a), hcount ys]

end SameByKey

end

/-! ## Sorting -/

section
variable {α K : Type} [DecidableEq K] [LE K] [LT K] [DecidableLT K] [Std.IsLinearOrder K]
  [Std.LawfulOrderLT K] {key : α → K} {xs ys : List α}

theorem filter_insertOn (key : α → K) (x : α) (ys : List α) (k : K) :
    ((insertOn key x ys).filter fun y => decide (key y = k)) =
      (x :: ys).filter fun y => decide (key y = k) := by
  induction ys with
  | nil => rfl
  | cons y ys ih =>
    rw [insertOn]
    split
    · -- an element that is passed over has a lower key than `x`
      rename_i hlt
      rw [List.filter_cons, ih]
      by_cases hx : key x = k
      · have hy : key y ≠ k := by grind
        simp [hx, hy]
      · simp [List.filter_cons, hx]
    · rfl

/-- **Sorting by a key is stable.** -/
theorem sameByKey_sortOn (key : α → K) (xs : List α) : SameByKey key (sortOn key xs) xs := by
  induction xs with
  | nil => exact .refl key []
  | cons x xs ih =>
    intro k
    rw [sortOn, filter_insertOn, List.filter_cons, List.filter_cons, ih k]

omit [LT K] [DecidableLT K] [Std.LawfulOrderLT K] in
theorem SameByKey.eq_of_sorted (h : SameByKey key xs ys)
    (hx : xs.Pairwise fun a b => key a ≤ key b) (hy : ys.Pairwise fun a b => key a ≤ key b) :
    xs = ys := by
  induction xs generalizing ys with
  | nil => exact (List.perm_nil.1 h.perm.symm).symm
  | cons x xs ih =>
    cases ys with
    | nil => exact List.perm_nil.1 h.perm
    | cons y ys =>
      obtain ⟨hxs, hx'⟩ := List.pairwise_cons.1 hx
      obtain ⟨hys, hy'⟩ := List.pairwise_cons.1 hy
      -- both heads have the least key, so the elements with that key begin with them
      have hkey : key x = key y := by
        have h1 : key y ≤ key x := by
          rcases List.mem_cons.1 (h.perm.subset (.head _)) with rfl | hm
          · exact Std.le_refl _
          · exact hys x hm
        have h2 : key x ≤ key y := by
          rcases List.mem_cons.1 (h.perm.symm.subset (.head _)) with rfl | hm
          · exact Std.le_refl _
          · exact hxs y hm
        exact Std.le_antisymm h2 h1
      have hhead := h (key x)
      rw [List.filter_cons_of_pos (by simp), List.filter_cons_of_pos (by simp [hkey])] at hhead
      obtain ⟨rfl, -⟩ := List.cons.inj hhead
      refine congrArg _ (ih (fun k => ?_) hx' hy')
      have hk := h k
      rw [List.filter_cons, List.filter_cons] at hk
      split at hk
      · exact (List.cons.inj hk).2
      · exact hk

/-- **Lists that agree key by key are sorted into one list.** -/
theorem SameByKey.sortOn_eq (h : SameByKey key xs ys) : sortOn key xs = sortOn key ys :=
  (((sameByKey_sortOn key xs).trans h).trans (sameByKey_sortOn key ys).symm).eq_of_sorted
    (sortOn_sorted key xs) (sortOn_sorted key ys)

end

end ReplicaRing
