/-!
# Orders taken over along a key

A type whose `≤` and `<` compare the keys of its values, by a key that tells all values apart, is
linearly ordered as its keys are.
-/

namespace ReplicaRing

variable {α K : Type} [LE K] [LT K] [Std.IsLinearOrder K] [Std.LawfulOrderLT K]

omit [LT K] [Std.LawfulOrderLT K] in
theorem isLinearOrder_of_key [LE α] (key : α → K) (inj : ∀ a b, key a = key b → a = b)
    (le_iff : ∀ a b : α, a ≤ b ↔ key a ≤ key b) : Std.IsLinearOrder α where
  le_refl a := (le_iff a a).2 (Std.le_refl _)
  le_trans a b c hab hbc :=
    (le_iff a c).2 (Std.le_trans ((le_iff a b).1 hab) ((le_iff b c).1 hbc))
  le_antisymm a b hab hba := inj a b (Std.le_antisymm ((le_iff a b).1 hab) ((le_iff b a).1 hba))
  le_total a b := by
    rw [le_iff, le_iff]
    exact Std.le_total

omit [Std.IsLinearOrder K] in
theorem lawfulOrderLT_of_key [LE α] [LT α] (key : α → K)
    (le_iff : ∀ a b : α, a ≤ b ↔ key a ≤ key b) (lt_iff : ∀ a b : α, a < b ↔ key a < key b) :
    Std.LawfulOrderLT α where
  lt_iff a b := by
    rw [lt_iff, le_iff, le_iff]
    exact Std.LawfulOrderLT.lt_iff _ _

end ReplicaRing
