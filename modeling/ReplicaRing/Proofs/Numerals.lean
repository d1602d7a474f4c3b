import ReplicaRing.Text.Numeral

/-!
# Written numbers

What the decimal digits of a number are, and that they tell it, also before or behind a mark that is
no digit.

* `Text.writeCount_injective`: different numbers are written differently.
* `Text.isDigit_of_mem_writeCount`: a number is written with digits only.
* `Text.digitsValue_writeCount`: reading the digits of a number gives the number.
* `Text.eq_zero_of_head?_writeCount`: only zero is written with a leading zero.
-/

namespace ReplicaRing.Text

theorem writeCount_injective : Function.Injective writeCount := by
  intro m n h
  have hvalue := congrArg (fun digits => Nat.ofDigitChars 10 digits 0) h
  simpa [writeCount] using hvalue

theorem isDigit_of_mem_writeCount {n : Nat} {c : Char} (h : c ∈ writeCount n) :
    c.isDigit = true :=
  Nat.isDigit_of_mem_toDigits (by decide) (by decide) h

theorem digitValue?_of_isDigit {c : Char} (h : c.isDigit = true) :
    digitValue? c = some (c.toNat - '0'.toNat) := by
  rw [Char.isDigit, Bool.and_eq_true, decide_eq_true_eq, decide_eq_true_eq] at h
  exact if_pos h

theorem digitsValue_of_isDigit {acc : Nat} {cs : List Char} (h : ∀ c ∈ cs, c.isDigit = true) :
    digitsValue acc cs = some (Nat.ofDigitChars 10 cs acc) := by
  induction cs generalizing acc with
  | nil => rfl
  | cons c cs ih =>
    rw [digitsValue, digitValue?_of_isDigit (h c (.head _)), Option.bind_some,
      ih fun d hd => h d (.tail _ hd), Nat.ofDigitChars_cons]

theorem digitsValue_writeCount (n : Nat) : digitsValue 0 (writeCount n) = some n := by
  rw [digitsValue_of_isDigit fun _ => isDigit_of_mem_writeCount, writeCount,
    Nat.ofDigitChars_toDigits (by decide) (by decide)]

theorem writeCount_ne_nil (n : Nat) : writeCount n ≠ [] := Nat.toDigits_ne_nil

theorem exists_writeCount_eq_cons (n : Nat) :
    ∃ d ds, writeCount n = d :: ds ∧ d.isDigit = true := by
  obtain ⟨d, ds, hcount⟩ := List.exists_cons_of_ne_nil (writeCount_ne_nil n)
  exact ⟨d, ds, hcount, isDigit_of_mem_writeCount (by rw [hcount]; exact .head _)⟩

theorem eq_zero_of_head?_writeCount {n : Nat} (h : (writeCount n).head? = some '0') : n = 0 := by
  induction n using Nat.strongRecOn with
  | ind n ih =>
    rw [writeCount, Nat.toDigits_eq_if (by decide)] at h
    split at h
    · have hdigit : ∀ d < 10, Nat.digitChar d = '0' → d = 0 := by decide
      exact hdigit n ‹_› (Option.some.inj h)
    · rw [List.head?_append,
        Option.or_of_isSome (List.isSome_head?.2 Nat.toDigits_ne_nil)] at h
      have htens := ih (n / 10) (by omega) h
      omega

/-! ## Texts cut at a mark -/

/-- Lists are told apart up to the first mark, and behind it. -/
theorem append_cons_inj_of_not_mem {α : Type} {a : α} {xs xs' ys ys' : List α} (h : a ∉ xs)
    (h' : a ∉ xs') (heq : xs ++ a :: ys = xs' ++ a :: ys') : xs = xs' ∧ ys = ys' := by
  induction xs generalizing xs' with
  | nil =>
    cases xs' with
    | nil => exact ⟨rfl, (List.cons.inj heq).2⟩
    | cons x' xs' =>
      obtain ⟨rfl, -⟩ := List.cons.inj heq
      exact absurd (.head _) h'
  | cons x xs ih =>
    cases xs' with
    | nil =>
      obtain ⟨rfl, -⟩ := List.cons.inj heq
      exact absurd (.head _) h
    | cons x' xs' =>
      obtain ⟨rfl, htail⟩ := List.cons.inj heq
      obtain ⟨rfl, rfl⟩ := ih (fun hm => h (.tail _ hm)) (fun hm => h' (.tail _ hm)) htail
      exact ⟨rfl, rfl⟩

end ReplicaRing.Text
