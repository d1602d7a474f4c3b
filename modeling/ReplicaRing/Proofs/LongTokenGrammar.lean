import Mathlib.Algebra.Group.Int.Defs
import ReplicaRing.Proofs.NumeralGrammar
import ReplicaRing.Proofs.Results
import ReplicaRing.Token.Long

/-!
# The grammar of long tokens

A long token is written in decimal, with a sign before the digits or without one. The digits are
read up to a limit that depends on the sign: there is one negative number more than there are
positive ones, so each limit is what the least and the greatest token are worth.

* `Text.BehindSign`: the sign of a text and what stands behind it; every text has it in one way.
* `Text.readSigned_eq_ok_iff`, `Text.readSigned_eq_error_iff`: numerals for 64-bit integers, and
  what is wrong with other texts.
* `LongToken.parse_reads_numerals`: what is read from every text, and that written tokens are read.
-/

namespace ReplicaRing

namespace Text

/-! ## Signs -/

/-- The second text is the first without its sign, if it begins with one; a minus sign makes a
number negative. -/
inductive BehindSign : Bool → List Char → List Char → Prop
  | minus (cs : List Char) : BehindSign true ('-' :: cs) cs
  | plus (cs : List Char) : BehindSign false ('+' :: cs) cs
  | plain {cs : List Char} (hminus : cs.head? ≠ some '-') (hplus : cs.head? ≠ some '+') :
    BehindSign false cs cs

/-- The integer with this sign and magnitude. -/
def signed (negative : Bool) (n : Nat) : Int := if negative then -n else n

/-- The greatest magnitude of a 64-bit integer with this sign. -/
def magnitudeLimit (negative : Bool) : Nat :=
  if negative then 0x8000000000000000 else 0x7fffffffffffffff

/-- What is wrong with a greater one. -/
def pastMagnitude (negative : Bool) : NumeralError := if negative then .tooSmall else .tooLarge

/-- The integer is one of 64 bits. -/
def IsInt64 (n : Int) : Prop := -2 ^ 63 ≤ n ∧ n ≤ 2 ^ 63 - 1

/-- A numeral for the integer `n`. -/
def ShowsInt (n : Int) (cs : List Char) : Prop :=
  ∃ negative ds m, BehindSign negative cs ds ∧ ShowsDigits m ds ∧ signed negative m = n

/-- What is wrong with a text that should be a numeral for a 64-bit integer. -/
inductive IntFault : List Char → NumeralError → Prop
  | empty : IntFault [] .empty
  | digits {negative : Bool} {cs ds : List Char} {e : NumeralError} (hne : cs ≠ [])
    (h : BehindSign negative cs ds)
    (hfault : DigitsFault (magnitudeLimit negative) (pastMagnitude negative) ds e) : IntFault cs e

section
variable {negative : Bool} {cs ds : List Char} {n : Int} {e : NumeralError}

theorem exists_behindSign (cs : List Char) : ∃ negative ds, BehindSign negative cs ds := by
  by_cases hminus : cs.head? = some '-'
  · obtain ⟨ds, rfl⟩ := List.head?_eq_some_iff.1 hminus
    exact ⟨true, ds, .minus ds⟩
  · by_cases hplus : cs.head? = some '+'
    · obtain ⟨ds, rfl⟩ := List.head?_eq_some_iff.1 hplus
      exact ⟨false, ds, .plus ds⟩
    · exact ⟨false, cs, .plain hminus hplus⟩

theorem isInt64_signed_iff {m : Nat} :
    IsInt64 (signed negative m) ↔ m ≤ magnitudeLimit negative := by
  unfold IsInt64 signed magnitudeLimit
  cases negative with
  | false =>
    simp only [Bool.false_eq_true, if_false]
    omega
  | true =>
    simp only [if_true]
    omega

/-! ## Numerals -/

/-- A magnitude is taken for an integer before it gets its sign. -/
theorem map_of_cast {ε : Type} (f : Int → Int) (r : Except ε Nat) :
    (r >>= fun n => pure (n : Int)).map f = r.map fun n : Nat => f n := by
  cases r <;> rfl

theorem readSigned_of_behindSign (h : BehindSign negative cs ds) (hne : cs ≠ []) :
    readSigned cs =
      (readMagnitude (magnitudeLimit negative) (pastMagnitude negative) ds).map
        (signed negative) := by
  cases h with
  | minus =>
    rw [readSigned, if_pos rfl, map_of_cast]
    rfl
  | plus =>
    rw [readSigned, if_neg (by decide), if_pos rfl, map_of_cast]
    rfl
  | plain hminus hplus =>
    cases cs with
    | nil => exact absurd rfl hne
    | cons c cs =>
      have hm : c ≠ '-' := fun hc => hminus (congrArg some hc)
      have hp : c ≠ '+' := fun hc => hplus (congrArg some hc)
      rw [readSigned, if_neg hm, if_neg hp, map_of_cast]
      rfl

theorem ShowsInt.ne_nil (h : ShowsInt n cs) : cs ≠ [] := by
  rintro rfl
  obtain ⟨negative, ds, m, hsign, hdigits, -⟩ := h
  cases hsign
  exact hdigits.ne_nil rfl

/-- A numeral has no blanks at its ends. -/
theorem ShowsInt.bare (h : ShowsInt n cs) : Bare cs := by
  obtain ⟨negative, ds, m, hsign, ⟨hne, hdigits, -⟩, -⟩ := h
  cases hsign with
  | minus => exact hdigits.bare_cons hne rfl
  | plus => exact hdigits.bare_cons hne rfl
  | plain => exact hdigits.bare

/-- **Read are the numerals for 64-bit integers**, leading zeros or not. -/
theorem readSigned_eq_ok_iff : readSigned cs = .ok n ↔ ShowsInt n cs ∧ IsInt64 n := by
  constructor
  · intro h
    have hne : cs ≠ [] := by
      rintro rfl
      cases h
    obtain ⟨negative, ds, hsign⟩ := exists_behindSign cs
    rw [readSigned_of_behindSign hsign hne, map_eq_ok_iff] at h
    obtain ⟨m, hm, rfl⟩ := h
    obtain ⟨hdigits, hle⟩ := readMagnitude_eq_ok_iff.1 hm
    exact ⟨⟨negative, ds, m, hsign, hdigits, rfl⟩, isInt64_signed_iff.2 hle⟩
  · rintro ⟨h, hfits⟩
    have hne := h.ne_nil
    obtain ⟨negative, ds, m, hsign, hdigits, rfl⟩ := h
    rw [readSigned_of_behindSign hsign hne, map_eq_ok_iff]
    exact ⟨m, readMagnitude_eq_ok_iff.2 ⟨hdigits, isInt64_signed_iff.1 hfits⟩, rfl⟩

theorem readSigned_eq_error_iff : readSigned cs = .error e ↔ IntFault cs e := by
  constructor
  · intro h
    by_cases hne : cs = []
    · subst hne
      cases h
      exact .empty
    · obtain ⟨negative, ds, hsign⟩ := exists_behindSign cs
      rw [readSigned_of_behindSign hsign hne, map_eq_error_iff, readMagnitude_eq_error_iff] at h
      exact .digits hne hsign h
  · rintro (_ | ⟨hne, hsign, hfault⟩)
    · rfl
    · rw [readSigned_of_behindSign hsign hne, map_eq_error_iff, readMagnitude_eq_error_iff]
      exact hfault

theorem behindSign_writeCount (m : Nat) : BehindSign false (writeCount m) (writeCount m) :=
  .plain (head?_writeCount_ne rfl m) (head?_writeCount_ne rfl m)

theorem showsInt_writeSigned (n : Int) : ShowsInt n (writeSigned n) := by
  have hdigits := showsDigits_writeCount n.natAbs
  unfold writeSigned
  split
  · refine ⟨true, _, _, .minus _, hdigits, ?_⟩
    show -(n.natAbs : Int) = n
    omega
  · refine ⟨false, _, _, behindSign_writeCount _, hdigits, ?_⟩
    show (n.natAbs : Int) = n
    omega

end

end Text

namespace LongToken

open Text

/-- The text is a numeral for `n` with blanks around it. -/
def Shows (n : Int) (cs : List Char) : Prop := ∃ core, Padded core cs ∧ ShowsInt n core

/-- What is wrong with a text, blanks around it aside. -/
def Fault (cs : List Char) (reason : NumeralError) : Prop :=
  ∃ core, Padded core cs ∧ Bare core ∧ IntFault core reason

section
variable {s : String} {t : LongToken} {e : ParseError} {n : Int}

theorem isInt64_toInt (x : Int64) : IsInt64 x.toInt := by
  have hlow := x.le_toInt
  have hhigh := x.toInt_lt
  unfold IsInt64
  omega

theorem toInt_ofInt (h : IsInt64 n) : (Int64.ofInt n).toInt = n := by
  obtain ⟨hlow, hhigh⟩ := h
  exact Int64.toInt_ofInt_of_le hlow (by omega)

theorem parse_eq_ok_iff : parse s = .ok t ↔ Shows t.value.toInt s.toList := by
  obtain ⟨x⟩ := t
  have hread : parse s = .ok ⟨x⟩ ↔ readSigned (trim s.toList) = .ok x.toInt := by
    unfold parse
    cases h : readSigned (trim s.toList) with
    | ok n =>
      have hn := toInt_ofInt (readSigned_eq_ok_iff.1 h).2
      simp only [Except.ok.injEq, LongToken.mk.injEq]
      rw [← Int64.toInt_inj, hn]
    | error => simp
  rw [hread, readSigned_eq_ok_iff, and_iff_left (isInt64_toInt x)]
  exact (exists_padded_iff fun _ => ShowsInt.bare).symm

theorem parse_eq_error_iff : parse s = .error e ↔ e.given = s ∧ Fault s.toList e.reason := by
  have hread : parse s = .error e ↔
      e.given = s ∧ readSigned (trim s.toList) = .error e.reason := by
    obtain ⟨given, reason⟩ := e
    unfold parse
    cases readSigned (trim s.toList) <;> simp [eq_comm]
  rw [hread, readSigned_eq_error_iff, Fault, exists_padded_iff fun _ h => h.1,
    and_iff_right (bare_trim _)]

theorem exists_parse_eq_ok_iff :
    (∃ t, parse s = .ok t ∧ t.value.toInt = n) ↔ Shows n s.toList ∧ IsInt64 n := by
  simp only [parse_eq_ok_iff]
  constructor
  · rintro ⟨t, h, rfl⟩
    exact ⟨h, isInt64_toInt t.value⟩
  · rintro ⟨h, hn⟩
    exact ⟨⟨.ofInt n⟩, by rwa [toInt_ofInt hn], toInt_ofInt hn⟩

theorem exists_parse_eq_error_iff :
    (∃ e, parse s = .error e) ↔ ¬∃ n, Shows n s.toList ∧ IsInt64 n := by
  have hok : (∃ n, Shows n s.toList ∧ IsInt64 n) ↔ ∃ t, parse s = .ok t := by
    simp only [← exists_parse_eq_ok_iff]
    exact ⟨fun ⟨_, t, h, _⟩ => ⟨t, h⟩, fun ⟨t, h⟩ => ⟨_, t, h, rfl⟩⟩
  rw [hok]
  cases parse s <;> simp

end

theorem parse_text (t : LongToken) : parse (Token.text t) = .ok t := by
  rw [parse_eq_ok_iff]
  show Shows t.value.toInt (String.ofList (writeSigned t.value.toInt)).toList
  rw [String.toList_ofList, Shows, exists_padded_iff fun _ => ShowsInt.bare,
    trim_of_ends (showsInt_writeSigned _).bare.head (showsInt_writeSigned _).bare.last]
  exact showsInt_writeSigned _

/-- **Numerals are read as tokens.** A text is read as the token worth `n` iff it is a numeral for
`n`, blanks around it aside, and `n` is an integer of 64 bits. Every other text is refused, and the
error shows it as it was given with what is wrong with it. A token is read again from its text. -/
theorem parse_reads_numerals :
    (∀ s n, (∃ t, parse s = .ok t ∧ t.value.toInt = n) ↔
      Shows n s.toList ∧ -2 ^ 63 ≤ n ∧ n ≤ 2 ^ 63 - 1) ∧
    (∀ s, (∃ e, parse s = .error e) ↔
      ¬∃ n, Shows n s.toList ∧ -2 ^ 63 ≤ n ∧ n ≤ 2 ^ 63 - 1) ∧
    (∀ s e, parse s = .error e ↔ e.given = s ∧ Fault s.toList e.reason) ∧
    ∀ t, parse (Token.text t) = .ok t :=
  ⟨fun _ _ => exists_parse_eq_ok_iff, fun _ => exists_parse_eq_error_iff,
    fun _ _ => parse_eq_error_iff, parse_text⟩

/-- The least token, and the number below it. -/
example : parse " -09223372036854775808" = .ok Token.origin ∧
    parse "-9223372036854775809" = .error ⟨"-9223372036854775809", .tooSmall⟩ := by decide

end LongToken

end ReplicaRing
