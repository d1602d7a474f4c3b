/-!
# Tokens: positions on the ring

A token space is linearly ordered and has a least token, the origin. The ring is that order
closed onto itself: what follows the greatest tokens is the origin again.
-/

namespace ReplicaRing

/-- A token space: a linear order with a least token and a step to the next one. -/
class Token (T : Type) extends LE T, LT T, Std.IsLinearOrder T, Std.LawfulOrderLT T where
  decEq : DecidableEq T
  decLE : DecidableLE T
  decLT : DecidableLT T
  /-- The least token, where the ring starts. -/
  origin : T
  origin_le : ∀ t : T, origin ≤ t
  /-- The next token; a space with a greatest token steps from it to the origin. -/
  successor : T → T
  /-- How a token is shown to operators. -/
  text : T → String

attribute [reducible, instance] Token.decEq Token.decLE Token.decLT

namespace Token

variable {T : Type} [Token T]

/-- Whether the token is the origin of the ring. -/
def isOrigin (t : T) : Bool := decide (t = origin)

theorem not_lt_origin (t : T) : ¬ t < (origin : T) := by
  have := origin_le t
  grind

theorem le_origin_iff {t : T} : t ≤ origin ↔ t = origin := by
  refine ⟨fun h => Std.le_antisymm h (origin_le t), ?_⟩
  rintro rfl
  exact Std.le_refl _

theorem origin_lt_iff {t : T} : origin < t ↔ t ≠ origin := by
  rw [← Std.not_le, le_origin_iff]

end Token

end ReplicaRing
