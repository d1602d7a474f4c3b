/-!
# Lists in ascending order of a key

* `sortOn key xs` sorts stably; it is a permutation of `xs` (`sortOn_perm`) with keys that never
  descend (`sortOn_sorted`) and strictly ascend if they are distinct (`sortOn_ascending`).
* `ascendingSet xs` lists the distinct members of `xs` in ascending order (`mem_ascendingSet`,
  `ascendingSet_ascending`).
* `Ascending.eq_of_mem_iff`: strictly ascending lists with the same members are equal, so either
  result does not depend on the order in which its input was listed.
* `find?_key_eq_some_iff`: among distinct keys, searching a key finds exactly its bearer.
-/

namespace ReplicaRing

/-- The keys of a list strictly ascend. -/
def Ascending {α K : Type} [LT K] (key : α → K) (xs : List α) : Prop :=
  xs.Pairwise fun a b => key a < key b

section Definitions

variable {α K : Type} [LT K] [DecidableLT K]

instance (key : α → K) (xs : List α) : Decidable (Ascending key xs) :=
  inferInstanceAs (Decidable (xs.Pairwise fun a b => key a < key b))

/-- Puts `x` before the first element whose key is not below its own. -/
def insertOn (key : α → K) (x : α) : List α → List α
  | [] => [x]
  | y :: ys => if key y < key x then y :: insertOn key x ys else x :: y :: ys

/-- The list in ascending order of its keys; elements with equal keys keep their order. -/
def sortOn (key : α → K) : List α → List α
  | [] => []
  | x :: xs => insertOn key x (sortOn key xs)

/-- Adds a member to a set kept as an ascending list. -/
def addMember (x : K) : List K → List K
  | [] => [x]
  | y :: ys => if x < y then x :: y :: ys else if y < x then y :: addMember x ys else y :: ys

/-- The distinct members of a list in ascending order. -/
def ascendingSet : List K → List K
  | [] => []
  | x :: xs => addMember x (ascendingSet xs)

end Definitions

/-! ## Members -/

section Members

variable {α K : Type} [LT K] [DecidableLT K]

theorem insertOn_perm (key : α → K) (x : α) (ys : List α) :
    (insertOn key x ys).Perm (x :: ys) := by
  induction ys with
  | nil => exact .refl _
  | cons y ys ih =>
    rw [insertOn]
    split
    · exact (ih.cons y).trans (.swap x y ys)
    · exact .refl _

theorem sortOn_perm (key : α → K) (xs : List α) : (sortOn key xs).Perm xs := by
  induction xs with
  | nil => exact .refl _
  | cons x xs ih => exact (insertOn_perm key x _).trans (ih.cons x)

@[simp] theorem mem_insertOn {key : α → K} {x y : α} {ys : List α} :
    y ∈ insertOn key x ys ↔ y = x ∨ y ∈ ys := by
  rw [(insertOn_perm key x ys).mem_iff, List.mem_cons]

@[simp] theorem mem_sortOn {key : α → K} {x : α} {xs : List α} : x ∈ sortOn key xs ↔ x ∈ xs :=
  (sortOn_perm key xs).mem_iff

@[simp] theorem length_sortOn (key : α → K) (xs : List α) :
    (sortOn key xs).length = xs.length :=
  (sortOn_perm key xs).length_eq

end Members

/-! ## Order -/

section Order

variable {α K : Type} [LE K] [LT K] [DecidableLT K] [Std.IsLinearOrder K] [Std.LawfulOrderLT K]

@[simp] theorem mem_addMember {x y : K} {ys : List K} :
    y ∈ addMember x ys ↔ y = x ∨ y ∈ ys := by
  induction ys with
  | nil => simp [addMember]
  | cons z zs ih =>
    rw [addMember]
    split
    · simp
    · split
      · simp only [List.mem_cons, ih]; grind
      · have : x = z := by grind
        simp [this]

@[simp] theorem mem_ascendingSet {x : K} {xs : List K} : x ∈ ascendingSet xs ↔ x ∈ xs := by
  induction xs with
  | nil => rfl
  | cons y ys ih => simp [ascendingSet, ih]

theorem ascendingSet_eq_nil_iff {xs : List K} : ascendingSet xs = [] ↔ xs = [] := by
  simp only [List.eq_nil_iff_forall_not_mem, mem_ascendingSet]

theorem insertOn_sorted {key : α → K} {x : α} {ys : List α}
    (h : ys.Pairwise fun a b => key a ≤ key b) :
    (insertOn key x ys).Pairwise fun a b => key a ≤ key b := by
  induction ys with
  | nil => simp [insertOn]
  | cons y ys ih =>
    obtain ⟨hy, hs⟩ := List.pairwise_cons.1 h
    rw [insertOn]
    split
    · refine List.pairwise_cons.2 ⟨fun z hz => ?_, ih hs⟩
      rcases mem_insertOn.1 hz with rfl | hz
      · grind
      · exact hy z hz
    · refine List.pairwise_cons.2 ⟨fun z hz => ?_, h⟩
      rcases List.mem_cons.1 hz with rfl | hz
      · grind
      · have := hy z hz; grind

theorem sortOn_sorted (key : α → K) (xs : List α) :
    (sortOn key xs).Pairwise fun a b => key a ≤ key b := by
  induction xs with
  | nil => exact .nil
  | cons x xs ih => exact insertOn_sorted ih

theorem Ascending.insertOn {key : α → K} {x : α} {ys : List α} (h : Ascending key ys)
    (hx : ∀ y ∈ ys, key y ≠ key x) : Ascending key (insertOn key x ys) := by
  induction ys with
  | nil => simp [ReplicaRing.insertOn, Ascending]
  | cons y ys ih =>
    obtain ⟨hy, hs⟩ := List.pairwise_cons.1 h
    rw [ReplicaRing.insertOn]
    split
    · refine List.pairwise_cons.2 ⟨fun z hz => ?_, ih hs fun z hz => hx z (.tail _ hz)⟩
      rcases mem_insertOn.1 hz with rfl | hz
      · assumption
      · exact hy z hz
    · have hne := hx y (.head _)
      refine List.pairwise_cons.2 ⟨fun z hz => ?_, h⟩
      rcases List.mem_cons.1 hz with rfl | hz
      · grind
      · have := hy z hz; grind

theorem sortOn_ascending {key : α → K} {xs : List α} (h : (xs.map key).Nodup) :
    Ascending key (sortOn key xs) := by
  induction xs with
  | nil => exact .nil
  | cons x xs ih =>
    rw [List.map_cons, List.nodup_cons] at h
    refine (ih h.2).insertOn fun y hy e => h.1 ?_
    rw [← e]
    exact List.mem_map_of_mem (mem_sortOn.1 hy)

theorem ascendingSet_ascending (xs : List K) : Ascending id (ascendingSet xs) := by
  induction xs with
  | nil => exact .nil
  | cons x xs ih =>
    rw [ascendingSet]
    generalize ascendingSet xs = ys at ih
    induction ys with
    | nil => simp [addMember, Ascending]
    | cons y ys ih' =>
      obtain ⟨hy, hs⟩ := List.pairwise_cons.1 ih
      rw [addMember]
      split
      · refine List.pairwise_cons.2 ⟨fun z hz => ?_, ih⟩
        rcases List.mem_cons.1 hz with rfl | hz
        · assumption
        · have := hy z hz; simp only [id] at *; grind
      · split
        · refine List.pairwise_cons.2 ⟨fun z hz => ?_, ih' hs⟩
          rcases mem_addMember.1 hz with rfl | hz
          · assumption
          · exact hy z hz
        · exact ih

end Order

/-! ## Uniqueness -/

section Uniqueness

variable {α K : Type} [LE K] [LT K] [Std.IsLinearOrder K] [Std.LawfulOrderLT K]

theorem Ascending.nodup {key : α → K} {xs : List α} (h : Ascending key xs) :
    (xs.map key).Nodup := by
  rw [List.nodup_iff_pairwise_ne, List.pairwise_map]
  exact h.imp fun hab => by grind

/-- Two members of an ascending list with the same key are one member. -/
theorem Ascending.eq_of_key_eq {key : α → K} {xs : List α} (h : Ascending key xs) {a b : α}
    (ha : a ∈ xs) (hb : b ∈ xs) (hk : key a = key b) : a = b := by
  induction xs with
  | nil => cases ha
  | cons x xs ih =>
    obtain ⟨hx, hs⟩ := List.pairwise_cons.1 h
    rcases List.mem_cons.1 ha with rfl | ha' <;> rcases List.mem_cons.1 hb with rfl | hb'
    · rfl
    · have := hx b hb'; grind
    · have := hx a ha'; grind
    · exact ih hs ha' hb'

theorem Ascending.eq_of_mem_iff {key : α → K} {xs ys : List α} (hx : Ascending key xs)
    (hy : Ascending key ys) (h : ∀ a, a ∈ xs ↔ a ∈ ys) : xs = ys := by
  induction xs generalizing ys with
  | nil =>
    cases ys with
    | nil => rfl
    | cons y ys => exact absurd ((h y).2 (.head _)) (by simp)
  | cons x xs ih =>
    cases ys with
    | nil => exact absurd ((h x).1 (.head _)) (by simp)
    | cons y ys =>
      obtain ⟨hxs, hx'⟩ := List.pairwise_cons.1 hx
      obtain ⟨hys, hy'⟩ := List.pairwise_cons.1 hy
      have hxy : x = y := by
        rcases List.mem_cons.1 ((h x).1 (.head _)) with e | hm
        · exact e
        · rcases List.mem_cons.1 ((h y).2 (.head _)) with e | hm'
          · exact e.symm
          · have := hys x hm; have := hxs y hm'; grind
      subst hxy
      refine congrArg _ (ih hx' hy' fun a => ⟨fun ha => ?_, fun ha => ?_⟩)
      · rcases List.mem_cons.1 ((h a).1 (.tail _ ha)) with rfl | hm
        · have := hxs a ha; grind
        · exact hm
      · rcases List.mem_cons.1 ((h a).2 (.tail _ ha)) with rfl | hm
        · have := hys a ha; grind
        · exact hm

end Uniqueness

/-! ## Searching by key -/

theorem find?_key_eq_some_iff {α K : Type} [DecidableEq K] {key : α → K} {xs : List α}
    (h : (xs.map key).Nodup) {k : K} {a : α} :
    (xs.find? fun x => decide (key x = k)) = some a ↔ a ∈ xs ∧ key a = k := by
  induction xs with
  | nil => simp
  | cons x xs ih =>
    rw [List.map_cons, List.nodup_cons] at h
    rw [List.find?_cons, List.mem_cons]
    by_cases hx : key x = k
    · simp only [hx, decide_true, Option.some.injEq]
      constructor
      · rintro rfl
        exact ⟨.inl rfl, hx⟩
      · rintro ⟨rfl | hm, hk⟩
        · rfl
        · exact absurd (List.mem_map.2 ⟨a, hm, hk.trans hx.symm⟩) h.1
    · simp only [hx, decide_false, ih h.2]
      constructor
      · exact fun ⟨hm, hk⟩ => ⟨.inr hm, hk⟩
      · rintro ⟨rfl | hm, hk⟩
        · exact absurd hk hx
        · exact ⟨hm, hk⟩

end ReplicaRing
