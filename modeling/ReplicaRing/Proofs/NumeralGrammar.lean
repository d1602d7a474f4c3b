import Mathlib.Data.List.TakeWhile
import ReplicaRing.Proofs.Numerals
import ReplicaRing.Text.Blank

/-!
# The grammar of numerals

Which texts are numerals, said without going through them: blanks at the ends, a sign, digits and
what they are worth. A reader stops at the first character that it cannot take, so what it objects
to is said of a text cut there: the digits before it, and the character.

* `Text.trim_eq_iff`, `Text.exists_padded_iff`: what is left of a text without the blanks at its
  ends.
* `Text.readMagnitude_eq_ok_iff`, `Text.readMagnitude_eq_error_iff`: the digits of a numeral.
* `Text.readCount_eq_ok_iff`, `Text.readCount_eq_error_iff`: numerals that stand for counts.
-/

namespace ReplicaRing.Text

/-! ## Blanks -/

/-- Nothing but blanks. -/
def AllBlank (cs : List Char) : Prop := ∀ c ∈ cs, isBlank c = true

/-- The second text is the first with blanks at its ends. -/
def Padded (cs padded : List Char) : Prop :=
  ∃ front back, AllBlank front ∧ AllBlank back ∧ padded = front ++ (cs ++ back)

/-- There are no blanks at the ends. -/
structure Bare (cs : List Char) : Prop where
  head : ∀ c, cs.head? = some c → isBlank c = false
  last : ∀ c, cs.getLast? = some c → isBlank c = false

section
variable {cs front back core : List Char}

theorem AllBlank.reverse (h : AllBlank cs) : AllBlank cs.reverse :=
  fun c hc => h c (List.mem_reverse.1 hc)

theorem allBlank_takeWhile (cs : List Char) : AllBlank (cs.takeWhile isBlank) :=
  fun _ => List.mem_takeWhile_imp

theorem trimStart_append (h : AllBlank front) (cs : List Char) :
    trimStart (front ++ cs) = trimStart cs :=
  List.dropWhile_append_of_pos h

theorem trimStart_of_allBlank (h : AllBlank cs) : trimStart cs = [] :=
  List.dropWhile_eq_nil_iff.2 h

theorem trim_append_left (h : AllBlank front) (cs : List Char) : trim (front ++ cs) = trim cs := by
  rw [trim, trimStart_append h, trim]

theorem trim_append_right (h : AllBlank back) (cs : List Char) : trim (cs ++ back) = trim cs := by
  have hstart : trimStart (cs ++ back) =
      if (trimStart cs).isEmpty then trimStart back else trimStart cs ++ back :=
    List.dropWhile_append
  rw [trim, trim, hstart, trimStart_of_allBlank h]
  split
  · rename_i hempty
    rw [List.isEmpty_iff.1 hempty]
  · -- the blanks at the end come first in the reversed text
    rw [List.reverse_append, trimStart_append h.reverse]

theorem head?_trimStart (cs : List Char) (c : Char) (h : (trimStart cs).head? = some c) :
    isBlank c = false := by
  have hstop := List.head?_dropWhile_not isBlank cs
  rw [trimStart] at h
  rwa [h] at hstop

theorem trimStart_split (cs : List Char) :
    ∃ front, AllBlank front ∧ cs = front ++ trimStart cs :=
  ⟨_, allBlank_takeWhile cs, List.takeWhile_append_dropWhile.symm⟩

theorem trimStart_split_right (cs : List Char) :
    ∃ back, AllBlank back ∧ trimStart cs = trim cs ++ back := by
  obtain ⟨back, hback, hsplit⟩ := trimStart_split (trimStart cs).reverse
  refine ⟨back.reverse, hback.reverse, ?_⟩
  rw [trim, ← List.reverse_append, ← hsplit, List.reverse_reverse]

theorem padded_trim (cs : List Char) : Padded (trim cs) cs := by
  obtain ⟨front, hfront, hstart⟩ := trimStart_split cs
  obtain ⟨back, hback, hend⟩ := trimStart_split_right cs
  exact ⟨front, back, hfront, hback, by rw [← hend, ← hstart]⟩

theorem bare_trim (cs : List Char) : Bare (trim cs) where
  head c hc := by
    obtain ⟨back, -, hsplit⟩ := trimStart_split_right cs
    refine head?_trimStart cs c ?_
    rw [hsplit, List.head?_append, hc, Option.some_or]
  last c hc := by
    rw [trim, List.getLast?_reverse] at hc
    exact head?_trimStart _ c hc

/-- **Trimming takes all blanks at the ends and nothing else.** -/
theorem trim_eq_iff : trim cs = core ↔ Padded core cs ∧ Bare core := by
  constructor
  · rintro rfl
    exact ⟨padded_trim cs, bare_trim cs⟩
  · rintro ⟨⟨front, back, hfront, hback, rfl⟩, hbare⟩
    rw [trim_append_left hfront, trim_append_right hback, trim_of_ends hbare.head hbare.last]

theorem trim_trim (cs : List Char) : trim (trim cs) = trim cs :=
  trim_of_ends (bare_trim cs).head (bare_trim cs).last

/-- What a trimmed text has to be, said of the text with its blanks. -/
theorem exists_padded_iff {P : List Char → Prop} (hbare : ∀ core, P core → Bare core) :
    (∃ core, Padded core cs ∧ P core) ↔ P (trim cs) := by
  constructor
  · rintro ⟨core, hpad, h⟩
    rwa [trim_eq_iff.2 ⟨hpad, hbare core h⟩]
  · exact fun h => ⟨_, padded_trim cs, h⟩

end

/-! ## Digits -/

/-- ASCII digits only. -/
def AllDigits (cs : List Char) : Prop := ∀ c ∈ cs, c.isDigit = true

/-- What digits are worth. -/
def worth (ds : List Char) : Nat := Nat.ofDigitChars 10 ds 0

/-- One or more digits, worth `n`. -/
structure ShowsDigits (n : Nat) (cs : List Char) : Prop where
  ne_nil : cs ≠ []
  digits : AllDigits cs
  worth_eq : worth cs = n

/-- What is wrong with digits that should be worth no more than `limit`: there is none, or behind
some that are within the limit stands another character, or already some are past the limit. -/
inductive DigitsFault (limit : Nat) (past : NumeralError) : List Char → NumeralError → Prop
  | none : DigitsFault limit past [] .invalidDigit
  | other {ds rest : List Char} {c : Char} (hds : AllDigits ds) (hworth : worth ds ≤ limit)
    (hc : c.isDigit = false) : DigitsFault limit past (ds ++ c :: rest) .invalidDigit
  | past {ds rest : List Char} (hds : AllDigits ds) (hworth : limit < worth ds) :
    DigitsFault limit past (ds ++ rest) past

theorem isDigit_of_digitValue? {c : Char} {d : Nat} (h : digitValue? c = some d) :
    c.isDigit = true := by
  unfold digitValue? at h
  split at h
  · rename_i hc
    rw [Char.isDigit, Bool.and_eq_true, decide_eq_true_eq, decide_eq_true_eq]
    exact hc
  · cases h

theorem isBlank_of_isDigit {c : Char} (h : c.isDigit = true) : isBlank c = false := by
  rw [Char.isDigit, Bool.and_eq_true, decide_eq_true_eq, decide_eq_true_eq] at h
  have hlow : 48 ≤ c.toNat := h.1
  have hhigh : c.toNat ≤ 57 := h.2
  simp only [isBlank, Bool.or_eq_false_iff, Bool.and_eq_false_imp, decide_eq_true_eq,
    decide_eq_false_iff_not, beq_eq_false_iff_ne, ne_eq]
  omega

theorem AllDigits.bare {ds : List Char} (h : AllDigits ds) : Bare ds where
  head c hc := isBlank_of_isDigit (h c (List.mem_of_head? hc))
  last c hc := isBlank_of_isDigit (h c (List.mem_of_getLast? hc))

/-- A sign before digits. -/
theorem AllDigits.bare_cons {c : Char} {ds : List Char} (h : AllDigits ds) (hne : ds ≠ [])
    (hc : isBlank c = false) : Bare (c :: ds) where
  head d hd := by
    cases hd
    exact hc
  last d hd := by
    rw [List.getLast?_cons_of_ne_nil hne] at hd
    exact h.bare.last d hd

theorem showsDigits_writeCount (n : Nat) : ShowsDigits n (writeCount n) where
  ne_nil := writeCount_ne_nil n
  digits _ := isDigit_of_mem_writeCount
  worth_eq := by rw [worth, writeCount, Nat.ofDigitChars_toDigits (by decide) (by decide)]

/-- A written number has no sign. -/
theorem head?_writeCount_ne {c : Char} (hc : c.isDigit = false) (n : Nat) :
    (writeCount n).head? ≠ some c := by
  intro h
  rw [isDigit_of_mem_writeCount (List.mem_of_head? h)] at hc
  cases hc

theorem digitValue?_eq_none_iff {c : Char} : digitValue? c = none ↔ c.isDigit = false := by
  cases hc : c.isDigit with
  | true => simp [digitValue?_of_isDigit hc]
  | false =>
    rw [Option.eq_none_iff_forall_ne_some]
    simp only [iff_true]
    intro d hd
    rw [isDigit_of_digitValue? hd] at hc
    cases hc

theorem digitsValue_eq_some_iff {acc n : Nat} {cs : List Char} :
    digitsValue acc cs = some n ↔ AllDigits cs ∧ Nat.ofDigitChars 10 cs acc = n := by
  constructor
  · intro h
    have hdigits : AllDigits cs := by
      induction cs generalizing acc with
      | nil => exact fun c hc => nomatch hc
      | cons c cs ih =>
        obtain ⟨d, hd, h⟩ := Option.bind_eq_some_iff.1 h
        exact List.forall_mem_cons.2 ⟨isDigit_of_digitValue? hd, ih h⟩
    rw [digitsValue_of_isDigit hdigits, Option.some.injEq] at h
    exact ⟨hdigits, h⟩
  · rintro ⟨hdigits, rfl⟩
    exact digitsValue_of_isDigit hdigits

theorem le_ofDigitChars {acc : Nat} {ds : List Char} (h : AllDigits ds) :
    acc ≤ Nat.ofDigitChars 10 ds acc :=
  le_of_digitsValue (digitsValue_of_isDigit h)

section
variable {limit : Nat} {past : NumeralError}

/-- One digit is read onto the value before it. -/
theorem readDigits_cons {acc : Nat} {c : Char} (h : c.isDigit = true) (cs : List Char) :
    readDigits limit past acc (c :: cs) =
      if limit < Nat.ofDigitChars 10 [c] acc then .error past
      else readDigits limit past (Nat.ofDigitChars 10 [c] acc) cs := by
  rw [readDigits, digitValue?_of_isDigit h]
  rfl

/-- Digits within the limit are read. -/
theorem readDigits_append {acc : Nat} {ds : List Char} (h : AllDigits ds)
    (hvalue : Nat.ofDigitChars 10 ds acc ≤ limit) (rest : List Char) :
    readDigits limit past acc (ds ++ rest) =
      readDigits limit past (Nat.ofDigitChars 10 ds acc) rest := by
  induction ds generalizing acc with
  | nil => rfl
  | cons d ds ih =>
    obtain ⟨hd, hds⟩ := List.forall_mem_cons.1 h
    have hle : Nat.ofDigitChars 10 [d] acc ≤ Nat.ofDigitChars 10 (d :: ds) acc :=
      le_ofDigitChars hds
    rw [List.cons_append, readDigits_cons hd, if_neg (by omega)]
    exact ih hds hvalue

/-- Digits past the limit are refused, whatever follows them. -/
theorem readDigits_append_past {acc : Nat} {ds : List Char} (h : AllDigits ds)
    (ha : acc ≤ limit) (hvalue : limit < Nat.ofDigitChars 10 ds acc) (rest : List Char) :
    readDigits limit past acc (ds ++ rest) = .error past := by
  induction ds generalizing acc with
  | nil => exact absurd hvalue (Nat.not_lt.2 ha)
  | cons d ds ih =>
    obtain ⟨hd, hds⟩ := List.forall_mem_cons.1 h
    rw [List.cons_append, readDigits_cons hd]
    split
    · rfl
    · exact ih hds (Nat.not_lt.1 ‹_›) hvalue

/-- Digits that are refused are cut before a character that is none, or behind one that takes them
past the limit. -/
theorem exists_cut_of_readDigits {acc : Nat} {cs : List Char} {e : NumeralError}
    (ha : acc ≤ limit) (h : readDigits limit past acc cs = .error e) :
    (∃ ds c rest, cs = ds ++ c :: rest ∧ AllDigits ds ∧ Nat.ofDigitChars 10 ds acc ≤ limit ∧
      c.isDigit = false ∧ e = .invalidDigit) ∨
    ∃ ds rest, cs = ds ++ rest ∧ AllDigits ds ∧ limit < Nat.ofDigitChars 10 ds acc ∧ e = past := by
  induction cs generalizing acc with
  | nil => cases h
  | cons c cs ih =>
    have hnil : AllDigits [] := fun _ hd => nomatch hd
    cases hc : c.isDigit with
    | false =>
      rw [readDigits, digitValue?_eq_none_iff.2 hc] at h
      cases h
      exact .inl ⟨[], c, cs, rfl, hnil, ha, hc, rfl⟩
    | true =>
      have hcons {ds : List Char} (hds : AllDigits ds) : AllDigits (c :: ds) :=
        List.forall_mem_cons.2 ⟨hc, hds⟩
      rw [readDigits_cons hc] at h
      split at h
      · cases h
        exact .inr ⟨[c], cs, rfl, hcons hnil, ‹_›, rfl⟩
      · rcases ih (Nat.not_lt.1 ‹_›) h with
          ⟨ds, c', rest, rfl, hds, hcut⟩ | ⟨ds, rest, rfl, hds, hcut⟩
        · exact .inl ⟨c :: ds, c', rest, rfl, hcons hds, hcut⟩
        · exact .inr ⟨c :: ds, rest, rfl, hcons hds, hcut⟩

theorem readMagnitude_of_ne_nil {cs : List Char} (h : cs ≠ []) :
    readMagnitude limit past cs = readDigits limit past 0 cs := by
  cases cs with
  | nil => exact absurd rfl h
  | cons c cs => rfl

/-- **Accepted are digits within the limit**, with what they are worth. -/
theorem readMagnitude_eq_ok_iff {cs : List Char} {n : Nat} :
    readMagnitude limit past cs = .ok n ↔ ShowsDigits n cs ∧ n ≤ limit := by
  cases cs with
  | nil => exact ⟨fun h => (nomatch h), fun h => absurd rfl h.1.ne_nil⟩
  | cons c cs =>
    rw [readMagnitude, readDigits_eq_ok (Nat.zero_le _), digitsValue_eq_some_iff]
    exact and_congr_left fun _ =>
      ⟨fun h => ⟨List.cons_ne_nil _ _, h.1, h.2⟩, fun h => ⟨h.digits, h.worth_eq⟩⟩

/-- **All else is refused** for its fault. -/
theorem readMagnitude_eq_error_iff {cs : List Char} {e : NumeralError} :
    readMagnitude limit past cs = .error e ↔ DigitsFault limit past cs e := by
  constructor
  · intro h
    cases cs with
    | nil =>
      cases h
      exact .none
    | cons c cs =>
      rcases exists_cut_of_readDigits (Nat.zero_le _) h with
        ⟨ds, d, rest, hcut, hds, hworth, hd, rfl⟩ | ⟨ds, rest, hcut, hds, hworth, rfl⟩
      · rw [hcut]
        exact .other hds hworth hd
      · rw [hcut]
        exact .past hds hworth
  · rintro (_ | ⟨hds, hworth, hc⟩ | ⟨hds, hworth⟩)
    · rfl
    · rw [readMagnitude_of_ne_nil (by simp), readDigits_append hds hworth, readDigits,
        digitValue?_eq_none_iff.2 hc]
    · rename_i ds rest
      -- no digits at all are worth nothing, which is within every limit
      have hne : ds ++ rest ≠ [] := by
        intro h
        rw [(List.append_eq_nil_iff.1 h).1] at hworth
        exact absurd hworth (Nat.not_lt.2 (Nat.zero_le _))
      rw [readMagnitude_of_ne_nil hne, readDigits_append_past hds (Nat.zero_le _) hworth]

end

/-! ## Counts -/

/-- The second text is the first, without the plus sign if that begins with one. -/
inductive BehindPlus : List Char → List Char → Prop
  | plus (cs : List Char) : BehindPlus ('+' :: cs) cs
  | plain {cs : List Char} (h : cs.head? ≠ some '+') : BehindPlus cs cs

/-- A numeral for the 64-bit count `n`. -/
def ShowsCount (n : Nat) (cs : List Char) : Prop :=
  ∃ ds, BehindPlus cs ds ∧ ShowsDigits n ds ∧ n < UInt64.size

/-- What is wrong with a text that should be a numeral for a 64-bit count. -/
inductive CountFault : List Char → NumeralError → Prop
  | empty : CountFault [] .empty
  | digits {cs ds : List Char} {e : NumeralError} (hne : cs ≠ []) (h : BehindPlus cs ds)
    (hfault : DigitsFault maxCount .tooLarge ds e) : CountFault cs e

section
variable {cs ds : List Char} {n : Nat} {e : NumeralError}

theorem readCount_of_behindPlus (h : BehindPlus cs ds) (hne : cs ≠ []) :
    readCount cs = readMagnitude maxCount .tooLarge ds := by
  cases h with
  | plus => rfl
  | plain h =>
    cases cs with
    | nil => exact absurd rfl hne
    | cons c cs =>
      have hc : c ≠ '+' := fun hc => h (congrArg some hc)
      rw [readCount, if_neg hc]

theorem exists_behindPlus (cs : List Char) : ∃ ds, BehindPlus cs ds := by
  by_cases h : cs.head? = some '+'
  · obtain ⟨ds, rfl⟩ := List.head?_eq_some_iff.1 h
    exact ⟨ds, .plus ds⟩
  · exact ⟨cs, .plain h⟩

theorem ShowsCount.ne_nil (h : ShowsCount n cs) : cs ≠ [] := by
  rintro rfl
  obtain ⟨ds, hsign, hdigits, -⟩ := h
  cases hsign
  exact hdigits.ne_nil rfl

/-- A numeral has no blanks at its ends. -/
theorem ShowsCount.bare (h : ShowsCount n cs) : Bare cs := by
  obtain ⟨ds, hsign, ⟨hne, hdigits, -⟩, -⟩ := h
  cases hsign with
  | plus => exact hdigits.bare_cons hne rfl
  | plain => exact hdigits.bare

theorem readCount_eq_ok_iff : readCount cs = .ok n ↔ ShowsCount n cs := by
  by_cases hne : cs = []
  · rw [hne]
    exact ⟨fun h => (nomatch h), fun h => absurd rfl h.ne_nil⟩
  · constructor
    · intro h
      obtain ⟨ds, hsign⟩ := exists_behindPlus cs
      rw [readCount_of_behindPlus hsign hne, readMagnitude_eq_ok_iff] at h
      exact ⟨ds, hsign, h.1, Nat.lt_succ_of_le h.2⟩
    · rintro ⟨ds, hsign, hdigits, hlt⟩
      rw [readCount_of_behindPlus hsign hne, readMagnitude_eq_ok_iff]
      exact ⟨hdigits, Nat.le_of_lt_succ hlt⟩

theorem readCount_eq_error_iff : readCount cs = .error e ↔ CountFault cs e := by
  constructor
  · intro h
    by_cases hne : cs = []
    · subst hne
      cases h
      exact .empty
    · obtain ⟨ds, hsign⟩ := exists_behindPlus cs
      rw [readCount_of_behindPlus hsign hne, readMagnitude_eq_error_iff] at h
      exact .digits hne hsign h
  · rintro (_ | ⟨hne, hsign, hfault⟩)
    · rfl
    · rw [readCount_of_behindPlus hsign hne, readMagnitude_eq_error_iff]
      exact hfault

end

end ReplicaRing.Text
