import Mathlib.Data.List.Nodup
import ReplicaRing.TokenRing

/-!
# The arcs of a ring

The arcs between neighbouring tokens cover the token space and do not overlap. A search for a
token cuts the ascending tokens into those below it and the others (`lt_iff_lt_countBelow`), and
the index that it finds is the index of the one arc that the token lies on.

* `getElem?_arcs_eq_some_iff`: the two ends of the arc with an index.
* `mem_arc_iff`: a token lies on the arc with an index iff its search finds that index.
* `arcFor?_eq`, `filter_mem_arcs`: so the arc of a token is the only one of the arcs with it.
-/

namespace ReplicaRing

theorem Arc.right_mem {T : Type} [Token T] (a : Arc T) : a.right ∈ a := by
  rw [mem_iff]
  grind

/-- An element of an ascending list stands before the cut at `k` iff its key is below `k`. -/
theorem Ascending.lt_iff_lt_length_takeWhile {α K : Type} [LE K] [LT K] [DecidableLT K]
    [Std.IsLinearOrder K] [Std.LawfulOrderLT K] {key : α → K} {xs : List α}
    (h : Ascending key xs) (k : K) {i : Nat} {x : α} (hi : xs[i]? = some x) :
    key x < k ↔ i < (xs.takeWhile fun x => decide (key x < k)).length := by
  induction xs generalizing i with
  | nil => simp at hi
  | cons y ys ih =>
    obtain ⟨hy, hs⟩ := List.pairwise_cons.1 h
    rw [List.takeWhile_cons]
    cases i with
    | zero =>
      rw [List.getElem?_cons_zero, Option.some.injEq] at hi
      subst hi
      by_cases hk : key y < k <;> simp [hk]
    | succ i =>
      rw [List.getElem?_cons_succ] at hi
      by_cases hk : key y < k
      · rw [if_pos (decide_eq_true hk), List.length_cons, ih hs hi]
        omega
      · -- the keys behind `y` are higher still
        have hlt := hy x (List.mem_of_getElem? hi)
        rw [if_neg (by simpa using hk), List.length_nil]
        constructor
        · intro hx
          exact absurd (Std.lt_trans hlt hx) hk
        · intro h0
          omega

namespace TokenRing

variable {T : Type} [Token T] {r : TokenRing T} {t x y : T} {i j : Nat} {a : Arc T}

/-! ## The cut -/

@[simp] theorem length_tokens (r : TokenRing T) : r.tokens.length = r.size := List.length_map _

theorem countBelow_le (r : TokenRing T) (t : T) : r.countBelow t ≤ r.size :=
  (List.takeWhile_sublist _).length_le

theorem lt_size_of_getElem? (h : r.tokens[i]? = some x) : i < r.size := by
  rw [← length_tokens]
  exact (List.getElem?_eq_some_iff.1 h).1

theorem exists_getElem?_tokens (h : i < r.size) : ∃ x, r.tokens[i]? = some x :=
  ⟨_, List.getElem?_eq_getElem (by rwa [length_tokens])⟩

/-- The tokens below `t` are those before the cut. -/
theorem lt_iff_lt_countBelow (h : r.tokens[i]? = some x) : x < t ↔ i < r.countBelow t := by
  rw [tokens, List.getElem?_map, Option.map_eq_some_iff] at h
  obtain ⟨v, hv, rfl⟩ := h
  exact r.ascending.lt_iff_lt_length_takeWhile t hv

theorem le_iff_countBelow_le (h : r.tokens[i]? = some x) : t ≤ x ↔ r.countBelow t ≤ i := by
  rw [← Std.not_lt, lt_iff_lt_countBelow h, Nat.not_lt]

/-- A search for one of the tokens cuts the ring just before it. -/
theorem countBelow_of_getElem? (h : r.tokens[i]? = some x) : r.countBelow x = i := by
  have hle : r.countBelow x ≤ i := (le_iff_countBelow_le h).1 (Std.le_refl x)
  by_contra hne
  -- the token at the cut would be one at or after `x` that stands before `x`
  have hlt : r.countBelow x < i := by omega
  obtain ⟨y, hy⟩ := exists_getElem?_tokens (Nat.lt_trans hlt (lt_size_of_getElem? h))
  have hxy : x ≤ y := (le_iff_countBelow_le hy).2 (Nat.le_refl _)
  have hyx : y < x := by
    obtain ⟨h1, rfl⟩ := List.getElem?_eq_some_iff.1 h
    obtain ⟨h2, rfl⟩ := List.getElem?_eq_some_iff.1 hy
    exact List.pairwise_iff_getElem.1 (List.pairwise_map.2 r.ascending) _ _ h2 h1 hlt
  grind

/-- Tokens are ordered as their indices are. -/
theorem getElem?_lt_iff (hx : r.tokens[i]? = some x) (hy : r.tokens[j]? = some y) :
    x < y ↔ i < j := by
  rw [lt_iff_lt_countBelow hx, countBelow_of_getElem? hy]

theorem getElem?_eq_iff (hx : r.tokens[i]? = some x) (hy : r.tokens[j]? = some y) :
    x = y ↔ i = j := by
  constructor
  · rintro rfl
    rw [← countBelow_of_getElem? hx, countBelow_of_getElem? hy]
  · rintro rfl
    rw [hx] at hy
    exact Option.some.inj hy

/-! ## The search -/

theorem firstIndex?_eq_some_iff : r.firstIndex? t = some i ↔
    i < r.size ∧ (r.countBelow t = i ∨ r.countBelow t = r.size ∧ i = 0) := by
  have hle := r.countBelow_le t
  unfold firstIndex?
  split
  · simp only [reduceCtorEq, false_iff]
    omega
  · rw [Option.some.injEq]
    split <;> omega

theorem firstIndex?_eq_none_iff : r.firstIndex? t = none ↔ r.isEmpty = true := by
  rw [firstIndex?, isEmpty, List.isEmpty_iff, ← List.length_eq_zero_iff, ← size]
  by_cases h : r.size = 0 <;> simp [h]

/-! ## The ends of an arc -/

omit [Token T] in
theorem map_right_arcsFrom (left : T) (ts : List T) : (arcsFrom left ts).map Arc.right = ts := by
  induction ts generalizing left with
  | nil => rfl
  | cons t ts ih => rw [arcsFrom, List.map_cons, ih]

omit [Token T] in
/-- Each of the arcs starts where the one before it ends. -/
theorem getElem?_arcsFrom_eq_some_iff (left : T) (ts : List T) :
    (arcsFrom left ts)[i]? = some a ↔ (left :: ts)[i]? = some a.left ∧ ts[i]? = some a.right := by
  induction ts generalizing left i with
  | nil => simp [arcsFrom]
  | cons t ts ih =>
    cases i with
    | zero =>
      obtain ⟨l, r⟩ := a
      simp [arcsFrom]
    | succ i => exact ih t

/-- The arcs end at the tokens, in their order. -/
theorem map_right_arcs (r : TokenRing T) : r.arcs.map Arc.right = r.tokens := by
  unfold arcs
  cases h : r.tokens.getLast? with
  | none => rw [List.getLast?_eq_none_iff.1 h, List.map_nil]
  | some last => exact map_right_arcsFrom last r.tokens

@[simp] theorem length_arcs (r : TokenRing T) : r.arcs.length = r.size := by
  rw [← List.length_map Arc.right, map_right_arcs, length_tokens]

/-- The index before that of a token; the last one comes before the first. -/
theorem index_before (h : i < r.size) :
    (i + r.size - 1) % r.size = if i = 0 then r.size - 1 else i - 1 := by
  split
  · subst i
    rw [Nat.zero_add, Nat.mod_eq_of_lt (by omega)]
  · rw [show i + r.size - 1 = i - 1 + r.size by omega, Nat.add_mod_right,
      Nat.mod_eq_of_lt (by omega)]

theorem index_before_lt (h : i < r.size) : (i + r.size - 1) % r.size < r.size :=
  Nat.mod_lt _ (Nat.zero_lt_of_lt h)

theorem getElem?_arcs_eq_some_iff : r.arcs[i]? = some a ↔
    r.tokens[(i + r.size - 1) % r.size]? = some a.left ∧ r.tokens[i]? = some a.right := by
  unfold arcs
  cases h : r.tokens.getLast? with
  | none =>
    rw [List.getLast?_eq_none_iff.1 h]
    simp
  | some last =>
    refine (getElem?_arcsFrom_eq_some_iff last r.tokens).trans (and_congr_left fun hi => ?_)
    rw [index_before (lt_size_of_getElem? hi)]
    cases i with
    | zero =>
      rw [List.getLast?_eq_getElem?, length_tokens] at h
      simp [h]
    | succ i => simp

/-! ## The arc of a token -/

/-- **A token lies on the arc with index `i` iff its search finds `i`.** -/
theorem mem_arc_iff (h : r.arcs[i]? = some a) : t ∈ a ↔ r.firstIndex? t = some i := by
  obtain ⟨hl, hr⟩ := getElem?_arcs_eq_some_iff.1 h
  have hi := lt_size_of_getElem? hr
  have hle := r.countBelow_le t
  rw [index_before hi] at hl
  rw [Arc.mem_iff, firstIndex?_eq_some_iff, getElem?_eq_iff hl hr, getElem?_lt_iff hr hl,
    lt_iff_lt_countBelow hl, le_iff_countBelow_le hr]
  split <;> omega

/-- The arc of a token is the arc with the index that the search finds. -/
theorem arcFor?_eq (r : TokenRing T) (t : T) :
    r.arcFor? t = (r.firstIndex? t).bind fun i => r.arcs[i]? := by
  unfold arcFor? predecessor? firstToken?
  cases h : r.firstIndex? t with
  | none => rfl
  | some i =>
    have hi := (firstIndex?_eq_some_iff.1 h).1
    obtain ⟨left, hl⟩ := exists_getElem?_tokens (index_before_lt hi)
    obtain ⟨right, hr⟩ := exists_getElem?_tokens hi
    have ha : r.arcs[i]? = some ⟨left, right⟩ := getElem?_arcs_eq_some_iff.2 ⟨hl, hr⟩
    simp [hl, hr, ha]

theorem arcFor?_eq_some_iff : r.arcFor? t = some a ↔ a ∈ r.arcs ∧ t ∈ a := by
  rw [arcFor?_eq, Option.bind_eq_some_iff, List.mem_iff_getElem?]
  constructor
  · rintro ⟨i, hi, ha⟩
    exact ⟨⟨i, ha⟩, (mem_arc_iff ha).2 hi⟩
  · rintro ⟨⟨i, ha⟩, ht⟩
    exact ⟨i, (mem_arc_iff ha).1 ht, ha⟩

theorem arcs_eq_nil_iff : r.arcs = [] ↔ r.isEmpty = true := by
  rw [← List.length_eq_zero_iff, length_arcs, size, List.length_eq_zero_iff, isEmpty,
    List.isEmpty_iff]

theorem arcFor?_eq_none_iff : r.arcFor? t = none ↔ r.isEmpty = true := by
  constructor
  · intro h
    rw [← firstIndex?_eq_none_iff (t := t)]
    cases hi : r.firstIndex? t with
    | none => rfl
    | some i =>
      have hlt := (firstIndex?_eq_some_iff.1 hi).1
      rw [arcFor?_eq, hi, Option.bind_some, List.getElem?_eq_getElem (by rwa [length_arcs])] at h
      cases h
  · intro h
    have ha : r.arcs = [] := arcs_eq_nil_iff.2 h
    rw [arcFor?_eq, ha]
    cases r.firstIndex? t <;> rfl

/-- Searching for the end of an arc finds what searching for any of its tokens finds. -/
theorem firstIndex?_right (h : r.arcFor? t = some a) : r.firstIndex? a.right = r.firstIndex? t := by
  obtain ⟨ha, ht⟩ := arcFor?_eq_some_iff.1 h
  obtain ⟨i, hi⟩ := List.mem_iff_getElem?.1 ha
  rw [(mem_arc_iff hi).1 ht, (mem_arc_iff hi).1 a.right_mem]

theorem arcFor?_right (h : a ∈ r.arcs) : r.arcFor? a.right = some a :=
  arcFor?_eq_some_iff.2 ⟨h, a.right_mem⟩

theorem ascending_arcs (r : TokenRing T) : Ascending Arc.right r.arcs := by
  rw [Ascending, ← List.pairwise_map (f := Arc.right), map_right_arcs]
  exact List.pairwise_map.2 r.ascending

theorem nodup_arcs (r : TokenRing T) : r.arcs.Nodup := r.ascending_arcs.nodup.of_map _

/-- **Every token lies on exactly one arc** of a ring with tokens. -/
theorem filter_mem_arcs (r : TokenRing T) (t : T) :
    (r.arcs.filter fun a => decide (t ∈ a)) = (r.arcFor? t).toList := by
  have hmem : ∀ a, a ∈ (r.arcs.filter fun a => decide (t ∈ a)) ↔ a ∈ (r.arcFor? t).toList := by
    intro a
    rw [List.mem_filter, decide_eq_true_eq, Option.mem_toList, arcFor?_eq_some_iff]
  cases h : r.arcFor? t with
  | none =>
    rw [h] at hmem
    exact List.eq_nil_iff_forall_not_mem.2 fun a ha => by simpa using (hmem a).1 ha
  | some b =>
    have hd : (Option.some b).toList.Nodup := List.nodup_singleton b
    rw [h, ← List.perm_ext_iff_of_nodup (r.nodup_arcs.filter _) hd] at hmem
    exact List.perm_singleton.1 hmem

end TokenRing

end ReplicaRing
