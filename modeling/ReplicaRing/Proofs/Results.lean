/-!
# Computations that may fail

What the results of computations in several steps come from: a result, from results of all steps; a
failure, from the first step that fails.

* `map_eq_ok_iff`, `mapError_eq_error_iff`, `bind_eq_ok_iff`, `bind_eq_error_iff`: single steps.
* `foldlM_eq_error_iff`: one step for each element of a list.
-/

namespace ReplicaRing

variable {ε ε' α β : Type} {x : Except ε α} {e : ε} {b : β}

theorem toOption_eq_some_iff {a : α} : x.toOption = some a ↔ x = .ok a := by
  cases x <;> simp [Except.toOption]

theorem isOk_iff : x.isOk = true ↔ ∃ a, x = .ok a := by
  cases x <;> simp [Except.isOk, Except.toBool]

theorem map_eq_ok_iff {f : α → β} : x.map f = .ok b ↔ ∃ a, x = .ok a ∧ f a = b := by
  cases x <;> simp [Except.map]

theorem map_eq_error_iff {f : α → β} : x.map f = .error e ↔ x = .error e := by
  cases x <;> simp [Except.map]

theorem mapError_eq_ok_iff {f : ε → ε'} {a : α} : x.mapError f = .ok a ↔ x = .ok a := by
  cases x with
  | ok a' =>
    show Except.ok a' = .ok a ↔ _
    simp
  | error e' =>
    show Except.error (f e') = .ok a ↔ _
    simp

theorem mapError_eq_error_iff {f : ε → ε'} {e : ε'} :
    x.mapError f = .error e ↔ ∃ e', x = .error e' ∧ f e' = e := by
  cases x with
  | ok a =>
    show Except.ok a = .error e ↔ _
    simp
  | error e' =>
    show Except.error (f e') = .error e ↔ _
    simp

theorem bind_eq_ok_iff {f : α → Except ε β} :
    x.bind f = .ok b ↔ ∃ a, x = .ok a ∧ f a = .ok b := by
  cases x <;> simp [Except.bind]

theorem bind_eq_error_iff {f : α → Except ε β} :
    x.bind f = .error e ↔ x = .error e ∨ ∃ a, x = .ok a ∧ f a = .error e := by
  cases x <;> simp [Except.bind]

/-- A fold that may fail does so at the first element that it cannot take in. -/
theorem foldlM_eq_error_iff {f : β → α → Except ε β} {xs : List α} :
    xs.foldlM f b = .error e ↔ ∃ front x back, xs = front ++ x :: back ∧
      ∃ b', front.foldlM f b = .ok b' ∧ f b' x = .error e := by
  induction xs generalizing b with
  | nil => simp [pure, Except.pure]
  | cons y xs ih =>
    rw [List.foldlM_cons]
    constructor
    · intro h
      cases hy : f b y with
      | error e' =>
        rw [hy] at h
        cases h
        exact ⟨[], y, xs, rfl, b, rfl, hy⟩
      | ok b1 =>
        rw [hy] at h
        obtain ⟨front, x, back, rfl, b', hb, hx⟩ := ih.1 h
        refine ⟨y :: front, x, back, rfl, b', ?_, hx⟩
        rw [List.foldlM_cons, hy]
        exact hb
    · rintro ⟨front, x, back, hl, b', hb, hx⟩
      cases front with
      | nil =>
        cases hl
        cases hb
        rw [hx]
        rfl
      | cons z front =>
        cases hl
        rw [List.foldlM_cons] at hb
        cases hy : f b y with
        | error e' =>
          rw [hy] at hb
          cases hb
        | ok b1 =>
          rw [hy] at hb
          exact ih.2 ⟨front, x, back, rfl, b', hb, hx⟩

end ReplicaRing
