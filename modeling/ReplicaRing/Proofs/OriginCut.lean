import ReplicaRing.Arc
import ReplicaRing.Token.Bytes
import ReplicaRing.Token.Long

/-!
# Arcs cut at the origin

An arc that runs past the greatest tokens is cut at the origin, where the second piece starts. The
origin itself goes to the first piece, since arcs hold their right ends: by its bounds that piece
wraps around, and it is still in one piece.

* `Arc.IsContiguous`: the arc does not go on behind the origin. These are the arcs that are not cut
  (`Arc.splitAtOrigin_eq_singleton_iff`).
* `Arc.mem_until_origin_iff`, `Arc.mem_from_origin_iff`: which tokens lie on the two pieces.
* `Arc.cut_loses_nothing`: the pieces together, for every arc.
-/

namespace ReplicaRing.Arc

variable {T : Type} [Token T] {a : Arc T} {t left right : T}

/-- The arc runs upwards or ends at the origin. -/
def IsContiguous (a : Arc T) : Prop := a.left < a.right ∨ a.right = Token.origin

theorem isContiguous_iff :
    a.IsContiguous ↔ a.wraps = false ∨ Token.isOrigin a.right = true := by
  unfold IsContiguous wraps Token.isOrigin
  rw [decide_eq_false_iff_not, decide_eq_true_eq, Std.not_le]

/-! ## What is cut -/

theorem splitAtOrigin_of_isContiguous (h : a.IsContiguous) : a.splitAtOrigin = [a] := by
  unfold splitAtOrigin
  apply if_pos
  simpa using isContiguous_iff.1 h

theorem splitAtOrigin_of_not_isContiguous (h : ¬a.IsContiguous) :
    a.splitAtOrigin = [⟨a.left, Token.origin⟩, ⟨Token.origin, a.right⟩] := by
  unfold splitAtOrigin
  apply if_neg
  simpa using mt isContiguous_iff.2 h

theorem splitAtOrigin_eq_singleton_iff : a.splitAtOrigin = [a] ↔ a.IsContiguous := by
  by_cases h : a.IsContiguous
  · simp [splitAtOrigin_of_isContiguous h, h]
  · simp [splitAtOrigin_of_not_isContiguous h, h]

/-- Both ends of an arc that is cut lie above the origin. -/
theorem bounds_of_not_isContiguous (h : ¬a.IsContiguous) :
    Token.origin < a.right ∧ a.right ≤ a.left := by
  obtain ⟨hwraps, hright⟩ := not_or.1 h
  exact ⟨Token.origin_lt_iff.2 hright, Std.not_lt.1 hwraps⟩

/-! ## What lies on the pieces -/

/-- Of the piece that ends at the origin. -/
theorem mem_until_origin_iff (h : Token.origin < left) :
    t ∈ (⟨left, Token.origin⟩ : Arc T) ↔ left < t ∨ t = Token.origin := by
  have hne : left ≠ Token.origin := (Std.ne_of_lt h).symm
  rw [mem_iff]
  simp only [hne, h, Token.le_origin_iff, true_and, false_or]
  exact or_iff_right_of_imp fun ht => .inl ht.1

/-- Of the piece that starts at the origin. -/
theorem mem_from_origin_iff (h : Token.origin < right) :
    t ∈ (⟨Token.origin, right⟩ : Arc T) ↔ Token.origin < t ∧ t ≤ right := by
  have hne : Token.origin ≠ right := Std.ne_of_lt h
  rw [mem_iff]
  simp [hne, Token.not_lt_origin]

theorem mem_iff_of_not_isContiguous (h : ¬a.IsContiguous) : t ∈ a ↔ a.left < t ∨ t ≤ a.right := by
  have hle := (bounds_of_not_isContiguous h).2
  rw [mem_iff]
  rcases Std.le_iff_lt_or_eq.1 hle with hlt | heq
  · have hne : a.left ≠ a.right := (Std.ne_of_lt hlt).symm
    simp only [hne, hlt, true_and, false_or]
    exact or_iff_right_of_imp fun ht => .inl ht.1
  · -- the whole ring, from its one end on
    have hall : a.left < t ∨ t ≤ a.left := by
      rw [← Std.not_lt]
      exact Classical.em _
    simp [heq, hall]

/-- The tokens of an arc are those of its pieces. -/
theorem mem_iff_exists_mem_splitAtOrigin : t ∈ a ↔ ∃ p ∈ a.splitAtOrigin, t ∈ p := by
  by_cases h : a.IsContiguous
  · simp [splitAtOrigin_of_isContiguous h]
  · obtain ⟨hright, hle⟩ := bounds_of_not_isContiguous h
    have hleft : Token.origin < a.left := Std.lt_of_lt_of_le hright hle
    simp only [splitAtOrigin_of_not_isContiguous h, List.mem_cons, List.not_mem_nil, or_false,
      exists_eq_or_imp, exists_eq_left, mem_until_origin_iff hleft, mem_from_origin_iff hright,
      mem_iff_of_not_isContiguous h]
    -- of the tokens up to the right end, the origin lies on the first piece and all others on the
    -- second
    by_cases ht : t = Token.origin
    · simp [ht, Std.le_of_lt hright]
    · simp [ht, Token.origin_lt_iff.2 ht]

theorem pairwise_splitAtOrigin (a : Arc T) (t : T) :
    a.splitAtOrigin.Pairwise fun p q => ¬(t ∈ p ∧ t ∈ q) := by
  by_cases h : a.IsContiguous
  · rw [splitAtOrigin_of_isContiguous h]
    exact List.pairwise_singleton _ _
  · obtain ⟨hright, hle⟩ := bounds_of_not_isContiguous h
    have hleft : Token.origin < a.left := Std.lt_of_lt_of_le hright hle
    rw [splitAtOrigin_of_not_isContiguous h, List.pairwise_pair, mem_until_origin_iff hleft,
      mem_from_origin_iff hright]
    rintro ⟨hlt | rfl, hpos, hupto⟩
    · exact Std.not_le_of_gt (Std.lt_of_le_of_lt hle hlt) hupto
    · exact Token.not_lt_origin _ hpos

theorem isContiguous_of_mem_splitAtOrigin {p : Arc T} (h : p ∈ a.splitAtOrigin) :
    p.IsContiguous := by
  by_cases hc : a.IsContiguous
  · rw [splitAtOrigin_of_isContiguous hc, List.mem_singleton] at h
    rwa [h]
  · rw [splitAtOrigin_of_not_isContiguous hc] at h
    simp only [List.mem_cons, List.not_mem_nil, or_false] at h
    rcases h with rfl | rfl
    · exact .inr rfl
    · exact .inl (bounds_of_not_isContiguous hc).1

/-- **Cutting an arc at the origin loses no token and doubles none.** The tokens of the arc are
those of its pieces, and none lies on two of them. Each piece is contiguous, so cutting it again
changes nothing. An arc stays whole just if it does not wrap around or ends at the origin. -/
theorem cut_loses_nothing (a : Arc T) :
    (∀ t, t ∈ a ↔ ∃ p ∈ a.splitAtOrigin, t ∈ p) ∧
    (∀ t, a.splitAtOrigin.Pairwise fun p q => ¬(t ∈ p ∧ t ∈ q)) ∧
    (∀ p ∈ a.splitAtOrigin,
      (p.left < p.right ∨ p.right = Token.origin) ∧ p.splitAtOrigin = [p]) ∧
    (a.splitAtOrigin = [a] ↔ a.wraps = false ∨ a.right = Token.origin) := by
  refine ⟨fun _ => mem_iff_exists_mem_splitAtOrigin, a.pairwise_splitAtOrigin, fun p hp => ?_, ?_⟩
  · have hc := isContiguous_of_mem_splitAtOrigin hp
    exact ⟨hc, splitAtOrigin_of_isContiguous hc⟩
  · rw [splitAtOrigin_eq_singleton_iff, isContiguous_iff, Token.isOrigin, decide_eq_true_eq]

/-- An arc of long tokens around the origin, and the whole ring of byte tokens from a token on. -/
theorem cut_loses_nothing_wrapping :
    let around : Arc LongToken := ⟨⟨400⟩, ⟨100⟩⟩
    let whole : Arc BytesToken := ⟨⟨[7]⟩, ⟨[7]⟩⟩
    around.splitAtOrigin = [⟨⟨400⟩, Token.origin⟩, ⟨Token.origin, ⟨100⟩⟩] ∧
      (∃ p ∈ around.splitAtOrigin, Token.origin ∈ p) ∧ around.splitAtOrigin ≠ [around] ∧
      (⟨⟨400⟩, Token.origin⟩ : Arc LongToken).splitAtOrigin = [⟨⟨400⟩, Token.origin⟩] ∧
      whole.splitAtOrigin = [⟨⟨[7]⟩, Token.origin⟩, ⟨Token.origin, ⟨[7]⟩⟩] ∧
      (∃ p ∈ whole.splitAtOrigin, (⟨[7, 0]⟩ : BytesToken) ∈ p) ∧
      (⟨Token.origin, ⟨[7]⟩⟩ : Arc BytesToken).splitAtOrigin = [⟨Token.origin, ⟨[7]⟩⟩] := by
  intro around whole
  have haround : around.splitAtOrigin = [⟨⟨400⟩, Token.origin⟩, ⟨Token.origin, ⟨100⟩⟩] := by decide
  have hwhole : whole.splitAtOrigin = [⟨⟨[7]⟩, Token.origin⟩, ⟨Token.origin, ⟨[7]⟩⟩] := by decide
  obtain ⟨hcovers, -, hpieces, huncut⟩ := cut_loses_nothing around
  obtain ⟨hcovers', -, hpieces', -⟩ := cut_loses_nothing whole
  exact ⟨haround, (hcovers _).1 (by decide), mt huncut.1 (by decide),
    (hpieces _ (by rw [haround]; exact .head _)).2, hwhole, (hcovers' _).1 (by decide),
    (hpieces' _ (by rw [hwhole]; exact .tail _ (.head _))).2⟩

end ReplicaRing.Arc
