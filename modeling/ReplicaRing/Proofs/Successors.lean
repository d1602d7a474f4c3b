import Mathlib.Order.Cover
import ReplicaRing.Proofs.Partition
import ReplicaRing.Token.Bytes

/-!
# Successors

The successor of a token is the next one on the ring (`Token.IsNext`): the least token above it or,
behind the greatest token, the origin. So an arc from a token to its successor holds nothing else,
and whoever searches the successor of a token of the ring finds the token after that.

* `BytesToken.covBy_concat_zero`: between a byte string and that string with a zero byte behind it
  there is no other.
* `LongToken.isNext_successor`, `BytesToken.isNext_successor`: both token spaces step this way.
* `TokenRing.firstIndex?_of_isNext`: what a search for the next token finds.
* `TokenRing.stepsFrom_eq`: where any number of such searches leads, by induction on the number.
-/

namespace ReplicaRing

namespace Token

variable {T : Type} [Token T] {t u v : T}

/-- The token `u` comes next after `t`, in the direction of the ring. -/
def IsNext (t u : T) : Prop := t ⋖ u ∨ (∀ v, v ≤ t) ∧ u = origin

theorem IsNext.not_between (h : IsNext t u) (v : T) : ¬(t < v ∧ v < u) := by
  rintro ⟨htv, hvu⟩
  rcases h with h | ⟨-, rfl⟩
  · exact h.2 htv hvu
  · exact not_lt_origin v hvu

/-- The arc up to the next token holds that token only. -/
theorem IsNext.mem_arc_iff (h : IsNext t u) : v ∈ (⟨t, u⟩ : Arc T) ↔ v = u := by
  refine ⟨fun hv => ?_, fun hv => hv ▸ Arc.right_mem _⟩
  rw [Arc.mem_iff] at hv
  rcases h with ⟨hlt, hnone⟩ | ⟨htop, rfl⟩
  · have hge : ¬u < t := Std.not_gt_of_lt hlt
    simp only [Std.ne_of_lt hlt, hge, false_and, or_false, false_or] at hv
    exact Std.le_antisymm hv.2 (Std.not_lt.1 (hnone hv.1))
  · -- nothing is above the greatest token, and only the origin is not above the origin
    have hnot : ¬t < v := Std.not_lt.2 (htop v)
    simp only [hnot, false_and, false_or] at hv
    rcases hv with ht | ⟨-, hle⟩
    · exact le_origin_iff.1 (ht ▸ htop v)
    · exact le_origin_iff.1 hle

end Token

/-! ## Both token spaces -/

theorem BytesToken.not_between_concat_zero {xs ys : List UInt8} (h : xs < ys) :
    ¬ys < xs ++ [0] := by
  induction xs generalizing ys with
  | nil =>
    cases ys with
    | nil => exact absurd h (List.not_lt_nil _)
    | cons y ys => simp [List.cons_lt_cons_iff]
  | cons x xs ih =>
    cases ys with
    | nil => exact absurd h (List.not_lt_nil _)
    | cons y ys =>
      rw [List.cons_append, List.cons_lt_cons_iff]
      rcases List.cons_lt_cons_iff.1 h with hxy | ⟨rfl, htail⟩
      · have hyx : ¬y < x := UInt8.lt_asymm hxy
        simp [hyx, (UInt8.ne_of_lt hxy).symm]
      · simp [ih htail]

/-- **A zero byte more is the least there can be behind a byte string.** -/
theorem BytesToken.covBy_concat_zero (xs : List UInt8) : xs ⋖ xs ++ [0] := by
  have hlt : xs ++ [] < xs ++ [0] := List.append_left_lt (List.nil_lt_cons 0 [])
  rw [List.append_nil] at hlt
  exact ⟨hlt, fun _ => not_between_concat_zero⟩

theorem BytesToken.isNext_successor (t : BytesToken) : Token.IsNext t (Token.successor t) := by
  obtain ⟨hlt, hnone⟩ := covBy_concat_zero t.bytes
  exact .inl ⟨hlt, fun u => @hnone u.bytes⟩

theorem LongToken.le_greatest (t : LongToken) : t ≤ greatest := Int64.le_maxValue t.value

theorem LongToken.lt_successor_iff {t : LongToken} : t < Token.successor t ↔ t ≠ greatest := by
  obtain ⟨n⟩ := t
  show n < n + 1 ↔ LongToken.mk n ≠ ⟨Int64.maxValue⟩
  simp only [ne_eq, LongToken.mk.injEq]
  grind

theorem LongToken.isNext_successor (t : LongToken) : Token.IsNext t (Token.successor t) := by
  by_cases h : t = greatest
  · subst h
    exact .inr ⟨le_greatest, rfl⟩
  · refine .inl ⟨lt_successor_iff.2 h, fun {u} htu hus => ?_⟩
    obtain ⟨n⟩ := t
    obtain ⟨m⟩ := u
    change n < m at htu
    change m < n + 1 at hus
    grind

/-! ## The tokens of a ring -/

namespace TokenRing

variable {T : Type} [Token T] {r : TokenRing T} {i : Nat} {k u : T}

theorem index_after (h : i < r.size) :
    (i + 1) % r.size = if i + 1 = r.size then 0 else i + 1 := by
  split
  · rename_i hlast
    rw [hlast, Nat.mod_self]
  · exact Nat.mod_eq_of_lt (by omega)

theorem index_before_after (h : i < r.size) :
    ((i + 1) % r.size + r.size - 1) % r.size = i := by
  rw [index_before (Nat.mod_lt _ (by omega)), index_after h]
  split <;> split <;> omega

/-- Up to the token that covers one of the ring there are the tokens up to that one. -/
theorem countBelow_of_covBy (h : r.tokens[i]? = some k) (hu : k ⋖ u) :
    r.countBelow u = i + 1 := by
  have hle := r.countBelow_le u
  have hge := (lt_iff_lt_countBelow h).1 hu.1
  by_contra hne
  -- one more token below `u` would lie between `k` and `u`
  obtain ⟨x, hx⟩ := exists_getElem?_tokens (r := r) (i := i + 1) (by omega)
  have hkx : k < x := (getElem?_lt_iff h hx).2 (by omega)
  have hxu : x < u := (lt_iff_lt_countBelow hx).2 (by omega)
  exact hu.2 hkx hxu

theorem countBelow_origin (r : TokenRing T) : r.countBelow Token.origin = 0 := by
  by_contra hne
  have hle := r.countBelow_le Token.origin
  obtain ⟨x, hx⟩ := exists_getElem?_tokens (r := r) (i := 0) (by omega)
  exact Token.not_lt_origin x ((lt_iff_lt_countBelow hx).2 (by omega))

/-- The greatest token of all is the last of a ring that has it. -/
theorem index_of_greatest (h : r.tokens[i]? = some k) (hk : ∀ v, v ≤ k) : i + 1 = r.size := by
  have hi := lt_size_of_getElem? h
  by_contra hne
  obtain ⟨x, hx⟩ := exists_getElem?_tokens (r := r) (i := i + 1) (by omega)
  have hkx : k < x := (getElem?_lt_iff h hx).2 (by omega)
  exact Std.not_lt.2 (hk x) hkx

/-- **A search for the next token** finds the next index. -/
theorem firstIndex?_of_isNext (h : r.tokens[i]? = some k) (hu : Token.IsNext k u) :
    r.firstIndex? u = some ((i + 1) % r.size) := by
  have hi := lt_size_of_getElem? h
  rw [firstIndex?_eq_some_iff, index_after hi]
  rcases hu with hu | ⟨hk, rfl⟩
  · rw [countBelow_of_covBy h hu]
    split <;> omega
  · rw [countBelow_origin, if_pos (index_of_greatest h hk)]
    omega

/-- The token that `n` searches lead to from `k`, each for the successor of what was found. -/
def stepsFrom (r : TokenRing T) (k : T) : Nat → Option T
  | 0 => some k
  | n + 1 => (r.stepsFrom k n).bind fun x => r.firstToken? (Token.successor x)

/-- What a ring finds for the successor of its token `k`, which has the index `i`. -/
structure StepsOn (r : TokenRing T) (i : Nat) (k : T) : Prop where
  index : r.firstIndex? (Token.successor k) = some ((i + 1) % r.size)
  predecessor : r.predecessor? (Token.successor k) = some k
  /-- The arc that ends at `k`, and the one behind it. -/
  arc : ∃ a b, r.arcs[i]? = some a ∧ a.right = k ∧ r.arcs[(i + 1) % r.size]? = some b ∧
    r.arcFor? (Token.successor k) = some b
  run (n : Nat) : r.stepsFrom k n = r.tokens[(i + n) % r.size]?

section
variable (hnext : ∀ t : T, Token.IsNext t (Token.successor t))
include hnext

/-- **Any number of steps** leads as many tokens on, around the ring. -/
theorem stepsFrom_eq (h : r.tokens[i]? = some k) (n : Nat) :
    r.stepsFrom k n = r.tokens[(i + n) % r.size]? := by
  have hi := lt_size_of_getElem? h
  induction n with
  | zero => rw [stepsFrom, Nat.add_zero, Nat.mod_eq_of_lt hi, h]
  | succ n ih =>
    obtain ⟨x, hx⟩ := exists_getElem?_tokens (r := r) (Nat.mod_lt (i + n) (by omega))
    rw [stepsFrom, ih, hx, Option.bind_some, firstToken?, firstIndex?_of_isNext hx (hnext x),
      Option.bind_some, Nat.mod_add_mod, Nat.add_assoc]

theorem stepsOn (h : r.tokens[i]? = some k) : r.StepsOn i k := by
  have hi := lt_size_of_getElem? h
  have hindex := firstIndex?_of_isNext h (hnext k)
  obtain ⟨b, hb, hfor, hleft, -⟩ := lookups_of_firstIndex? hindex
  obtain ⟨left, hl⟩ := exists_getElem?_tokens (index_before_lt hi)
  refine ⟨hindex, ?_, ⟨⟨left, k⟩, b, getElem?_arcs_eq_some_iff.2 ⟨hl, h⟩, rfl, hb, hfor⟩,
    stepsFrom_eq hnext h⟩
  -- the arc behind the one that ends at `k` starts there
  have hk := (getElem?_arcs_eq_some_iff.1 hb).1
  rw [index_before_after hi, h] at hk
  rw [hleft, ← hk]

end

end TokenRing

/-! ## What stepping does -/

/-- Stepping to the successor leaves out no token of the space, and none of a ring. -/
structure Token.Gapless (T : Type) [Token T] : Prop where
  between (t u : T) : ¬(t < u ∧ u < Token.successor t)
  arc (t u : T) : u ∈ (⟨t, Token.successor t⟩ : Arc T) ↔ u = Token.successor t
  ring (r : TokenRing T) (i : Nat) (k : T) : r.tokens[i]? = some k → r.StepsOn i k

theorem Token.gapless_of_isNext {T : Type} [Token T]
    (h : ∀ t : T, Token.IsNext t (Token.successor t)) : Token.Gapless T where
  between t u := (h t).not_between u
  arc t _ := (h t).mem_arc_iff
  ring _ _ _ := TokenRing.stepsOn h

/-- **Successors leave no gap, and follow every ring.** A long token is below its successor, but for
the greatest, which is followed by the origin, and every byte token is below its own. There is no
token in between, and a search for the successor of a token of a ring goes on by one token. -/
theorem successors_follow_ring :
    (∀ t : LongToken, t < Token.successor t ↔ t ≠ .greatest) ∧
    Token.successor LongToken.greatest = Token.origin ∧
    (∀ t : BytesToken, t < Token.successor t) ∧
    Token.Gapless LongToken ∧ Token.Gapless BytesToken :=
  ⟨fun _ => LongToken.lt_successor_iff, rfl, fun t => (BytesToken.covBy_concat_zero t.bytes).1,
    Token.gapless_of_isNext LongToken.isNext_successor,
    Token.gapless_of_isNext BytesToken.isNext_successor⟩

/-- A ring with the greatest long token, and one with a single byte token. -/
theorem successors_follow_ring_past_last :
    let long : TokenRing LongToken := ⟨[⟨⟨10⟩, 1⟩, ⟨.greatest, 2⟩], by decide⟩
    let bytes : TokenRing BytesToken := ⟨[⟨⟨[7]⟩, 1⟩], by decide⟩
    long.tokens[1]? = some .greatest ∧ long.StepsOn 1 .greatest ∧
      bytes.tokens[0]? = some ⟨[7]⟩ ∧ bytes.StepsOn 0 ⟨[7]⟩ := by
  intro long bytes
  obtain ⟨-, -, -, hlong, hbytes⟩ := successors_follow_ring
  exact ⟨rfl, hlong.ring long 1 _ rfl, rfl, hbytes.ring bytes 0 _ rfl⟩

end ReplicaRing
