import Mathlib.Order.Bounds.Defs
import ReplicaRing.Proofs.Arcs
import ReplicaRing.Token.Long

/-!
# The arcs partition the token space

What a search finds for a token, said by the order of the tokens alone: the least token of the ring
at or after it or, past all tokens of the ring, the least of them (`TokenRing.Serves`). The token
lies on the arc that ends there, and on no other.

* `TokenRing.serves_of_firstIndex?`: the token that is found serves the one that is searched.
* `TokenRing.partitioned_by_arcs`: every search, and the one arc that its token lies on.
-/

namespace ReplicaRing.TokenRing

variable {T : Type} [Token T] {r : TokenRing T} {t x : T} {i : Nat}

/-- The ring's token `x` is the first at or after `t`; past the last token that is the first of
the ring. -/
def Serves (r : TokenRing T) (t x : T) : Prop :=
  IsLeast {y | y ∈ r.tokens ∧ t ≤ y} x ∨
    (∀ y ∈ r.tokens, y < t) ∧ IsLeast {y | y ∈ r.tokens} x

/-- The token with an index is below those with the indices behind it. -/
theorem le_of_getElem?_tokens {j : Nat} {y : T} (hx : r.tokens[i]? = some x)
    (hy : r.tokens[j]? = some y) (h : i ≤ j) : x ≤ y := by
  rw [le_iff_countBelow_le hy, countBelow_of_getElem? hx]
  exact h

/-- **The token that a search finds serves the token searched for.** -/
theorem serves_of_firstIndex? (hi : r.firstIndex? t = some i) (hx : r.tokens[i]? = some x) :
    r.Serves t x := by
  have hmem : x ∈ r.tokens := List.mem_of_getElem? hx
  rcases firstIndex?_eq_some_iff.1 hi with ⟨-, hcut | ⟨hcut, rfl⟩⟩
  · -- the cut falls just before `x`
    refine .inl ⟨⟨hmem, (le_iff_countBelow_le hx).2 (by omega)⟩, ?_⟩
    rintro y ⟨hy, hty⟩
    obtain ⟨j, hj⟩ := List.mem_iff_getElem?.1 hy
    have hle := (le_iff_countBelow_le hj).1 hty
    exact le_of_getElem?_tokens hx hj (by omega)
  · -- the cut falls behind all tokens
    refine .inr ⟨fun y hy => ?_, hmem, fun y hy => ?_⟩ <;>
      obtain ⟨j, hj⟩ := List.mem_iff_getElem?.1 hy
    · have hlt := lt_size_of_getElem? hj
      exact (lt_iff_lt_countBelow hj).2 (by omega)
    · exact le_of_getElem?_tokens hx hj (Nat.zero_le j)

/-- What the accessors of a ring find for a token, by the index that its search finds. -/
theorem lookups_of_firstIndex? (hi : r.firstIndex? t = some i) :
    ∃ arc, r.arcs[i]? = some arc ∧ r.arcFor? t = some arc ∧
      r.predecessor? t = some arc.left ∧ r.firstToken? t = some arc.right := by
  have hlt := (firstIndex?_eq_some_iff.1 hi).1
  obtain ⟨right, hr⟩ := exists_getElem?_tokens hlt
  obtain ⟨left, hl⟩ := exists_getElem?_tokens (index_before_lt hlt)
  have ha : r.arcs[i]? = some ⟨left, right⟩ := getElem?_arcs_eq_some_iff.2 ⟨hl, hr⟩
  refine ⟨⟨left, right⟩, ha, ?_, ?_, ?_⟩
  · rw [arcFor?_eq, hi, Option.bind_some, ha]
  · rw [predecessor?, hi, Option.bind_some, hl]
  · rw [firstToken?, hi, Option.bind_some, hr]

/-- The only arc of a ring with one token is the whole ring. -/
theorem arcs_of_size_one (h : r.size = 1) : ∃ arc, r.arcs = [arc] ∧ arc.isFull = true := by
  obtain ⟨arc, ha⟩ := List.length_eq_one_iff.1 (r.length_arcs.trans h)
  have h0 : r.arcs[0]? = some arc := by rw [ha]; rfl
  obtain ⟨hl, hr⟩ := getElem?_arcs_eq_some_iff.1 h0
  rw [h, hr] at hl
  exact ⟨arc, ha, decide_eq_true (Option.some.inj hl).symm⟩

/-- **The arcs partition the token space.** Without tokens a ring has no arcs, and its searches find
nothing. Otherwise every token lies on exactly one arc. Its index is what the search finds, its ends
are the token that serves the one searched for and the token before that; and the arc of a single
token is the whole ring. -/
theorem partitioned_by_arcs (r : TokenRing T) (t : T) :
    (r.isEmpty = true → r.firstIndex? t = none ∧ r.firstToken? t = none ∧
      r.predecessor? t = none ∧ r.arcFor? t = none ∧ r.arcs = []) ∧
    (r.isEmpty = false → ∃ i arc,
      (∀ j, (∃ a, r.arcs[j]? = some a ∧ t ∈ a) ↔ j = i) ∧ r.firstIndex? t = some i ∧
      r.arcs[i]? = some arc ∧ r.arcFor? t = some arc ∧
      r.predecessor? t = some arc.left ∧ r.firstToken? t = some arc.right ∧
      r.Serves t arc.right) ∧
    (r.size = 1 → ∃ arc, r.arcs = [arc] ∧ arc.isFull = true) := by
  refine ⟨fun he => ?_, fun he => ?_, arcs_of_size_one⟩
  · have hi : r.firstIndex? t = none := firstIndex?_eq_none_iff.2 he
    exact ⟨hi, by rw [firstToken?, hi]; rfl, by rw [predecessor?, hi]; rfl,
      arcFor?_eq_none_iff.2 he, arcs_eq_nil_iff.2 he⟩
  · obtain ⟨i, hi⟩ : ∃ i, r.firstIndex? t = some i := by
      rw [← Option.isSome_iff_exists, Option.isSome_iff_ne_none]
      intro hn
      rw [firstIndex?_eq_none_iff, he] at hn
      cases hn
    obtain ⟨arc, ha, hfor, hleft, hright⟩ := lookups_of_firstIndex? hi
    refine ⟨i, arc, fun j => ?_, hi, ha, hfor, hleft, hright,
      serves_of_firstIndex? hi (getElem?_arcs_eq_some_iff.1 ha).2⟩
    constructor
    · rintro ⟨a, hj, ht⟩
      have hj := (mem_arc_iff hj).1 ht
      rw [hi] at hj
      exact (Option.some.inj hj).symm
    · rintro rfl
      exact ⟨arc, ha, (mem_arc_iff ha).2 hi⟩

/-- A ring without tokens, one with a single token, and one with three, searched past the last. -/
theorem partitioned_by_arcs_threeTokens :
    let bare : TokenRing LongToken := .empty
    let one : TokenRing LongToken := ⟨[⟨⟨10⟩, 1⟩], by decide⟩
    let three : TokenRing LongToken := ⟨[⟨⟨10⟩, 1⟩, ⟨⟨20⟩, 2⟩, ⟨⟨30⟩, 1⟩], by decide⟩
    (bare.isEmpty = true ∧ bare.arcFor? ⟨35⟩ = none) ∧
      (one.size = 1 ∧ ∃ arc, one.arcs = [arc] ∧ arc.isFull = true) ∧
      three.isEmpty = false ∧ three.firstIndex? ⟨35⟩ = some 0 ∧
      three.arcFor? ⟨35⟩ = some ⟨⟨30⟩, ⟨10⟩⟩ ∧ three.Serves ⟨35⟩ ⟨10⟩ ∧
      ∀ j, (∃ a, three.arcs[j]? = some a ∧ (⟨35⟩ : LongToken) ∈ a) ↔ j = 0 := by
  intro bare one three
  have hbare : bare.isEmpty = true := rfl
  have hone : one.size = 1 := rfl
  have hthree : three.isEmpty = false := rfl
  obtain ⟨-, -, -, hnone, -⟩ := (bare.partitioned_by_arcs ⟨35⟩).1 hbare
  have hfull := (one.partitioned_by_arcs ⟨35⟩).2.2 hone
  obtain ⟨i, arc, honly, hi, -, hfor, -, -, hserves⟩ := (three.partitioned_by_arcs ⟨35⟩).2.1 hthree
  have hindex : three.firstIndex? ⟨35⟩ = some 0 := by decide
  have harc : three.arcFor? ⟨35⟩ = some ⟨⟨30⟩, ⟨10⟩⟩ := by decide
  rw [hindex] at hi
  rw [harc] at hfor
  cases hi
  cases hfor
  exact ⟨⟨hbare, hnone⟩, ⟨hone, hfull⟩, hthree, hindex, harc, hserves, honly⟩

end ReplicaRing.TokenRing
