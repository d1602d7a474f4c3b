/-!
# Decimal numerals

Numbers are written in decimal without leading zeros, a minus sign before the negative ones.
The readers take 64-bit numbers: an optional sign, then one or more ASCII digits, leading zeros
allowed. A numeral is read from left to right and the first position that fails decides: a
character that is no digit, or a digit that takes the value past its limit.

* `readDigits_eq_ok`: accepted are exactly digits whose value (`digitsValue`) is within the limit.
-/

namespace ReplicaRing.Text

/-- The decimal digits of `n`. -/
def writeCount (n : Nat) : List Char := Nat.toDigits 10 n

/-- The decimal digits of the absolute value of `n`, after a minus sign if `n` is negative. -/
def writeSigned (n : Int) : List Char :=
  if n < 0 then '-' :: writeCount n.natAbs else writeCount n.natAbs

/-- The decimal text of `n`. -/
def decimal (n : Nat) : String := String.ofList (writeCount n)

/-- Why a text is no numeral of the wanted kind. -/
inductive NumeralError
  | empty
  | invalidDigit
  | tooLarge
  | tooSmall
  deriving DecidableEq, Repr

/-- The sentence reported for a refused numeral. -/
def NumeralError.message : NumeralError → String
  | .empty => "cannot parse integer from empty string"
  | .invalidDigit => "invalid digit found in string"
  | .tooLarge => "number too large to fit in target type"
  | .tooSmall => "number too small to fit in target type"

/-- The value of an ASCII digit. -/
def digitValue? (c : Char) : Option Nat :=
  if '0' ≤ c ∧ c ≤ '9' then some (c.toNat - '0'.toNat) else none

/-- Reads digits onto the value `acc`; past `limit` the answer is `past`. -/
def readDigits (limit : Nat) (past : NumeralError) (acc : Nat) :
    List Char → Except NumeralError Nat
  | [] => .ok acc
  | c :: cs =>
    match digitValue? c with
    | none => .error .invalidDigit
    | some d =>
      if limit < 10 * acc + d then .error past else readDigits limit past (10 * acc + d) cs

/-- Reads the digits after an optional sign; there has to be at least one. -/
def readMagnitude (limit : Nat) (past : NumeralError) : List Char → Except NumeralError Nat
  | [] => .error .invalidDigit
  | c :: cs => readDigits limit past 0 (c :: cs)

/-- The largest value of an unsigned 64-bit number. -/
def maxCount : Nat := 0xffffffffffffffff

/-- Reads an unsigned 64-bit number: only a plus sign may precede its digits. -/
def readCount : List Char → Except NumeralError Nat
  | [] => .error .empty
  | c :: cs => readMagnitude maxCount .tooLarge (if c = '+' then cs else c :: cs)

/-- Reads a signed 64-bit number. -/
def readSigned : List Char → Except NumeralError Int
  | [] => .error .empty
  | c :: cs =>
    if c = '-' then (readMagnitude 0x8000000000000000 .tooSmall cs).map fun n => -(n : Int)
    else
      (readMagnitude 0x7fffffffffffffff .tooLarge (if c = '+' then cs else c :: cs)).map fun n => n

/-! ## What is accepted -/

/-- The value of digits that follow the value `acc`; `none` if some character is no digit. -/
def digitsValue (acc : Nat) : List Char → Option Nat
  | [] => some acc
  | c :: cs => (digitValue? c).bind fun d => digitsValue (10 * acc + d) cs

theorem digitValue?_lt {c : Char} {d : Nat} (h : digitValue? c = some d) : d < 10 := by
  unfold digitValue? at h
  split at h
  · rename_i hc
    have h9 : c.toNat ≤ 57 := hc.2
    cases h
    simp; omega
  · cases h

theorem le_of_digitsValue {acc n : Nat} {cs : List Char} (h : digitsValue acc cs = some n) :
    acc ≤ n := by
  induction cs generalizing acc with
  | nil => simp only [digitsValue, Option.some.injEq] at h; omega
  | cons c cs ih =>
    obtain ⟨d, -, h⟩ := Option.bind_eq_some_iff.1 h
    have := ih h
    omega

theorem readDigits_eq_ok {limit : Nat} {past : NumeralError} {acc n : Nat} {cs : List Char}
    (ha : acc ≤ limit) :
    readDigits limit past acc cs = .ok n ↔ digitsValue acc cs = some n ∧ n ≤ limit := by
  induction cs generalizing acc with
  | nil =>
    simp only [readDigits, digitsValue, Except.ok.injEq, Option.some.injEq]
    exact ⟨fun h => ⟨h, h ▸ ha⟩, fun h => h.1⟩
  | cons c cs ih =>
    rw [readDigits, digitsValue]
    cases digitValue? c with
    | none => simp
    | some d =>
      simp only [Option.bind_some]
      split
      · rename_i hl
        refine ⟨fun h => (nomatch h), fun ⟨h, hn⟩ => ?_⟩
        have := le_of_digitsValue h
        omega
      · exact ih (by omega)

end ReplicaRing.Text
