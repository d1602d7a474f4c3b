import ReplicaRing.Json

/-!
# Reading JSON

A strict reader: no text before or after the value, no trailing commas, no raw control characters
in strings, no leading zeros in numbers. Readers take the characters of a text and return what
they have read together with the characters after it. Nesting is bounded by the length of the
text, which is what `readValue` counts down.
-/

namespace ReplicaRing.Json

/-- The text without the blanks at its start. -/
def skipBlanks (cs : List Char) : List Char :=
  cs.dropWhile fun c => c == ' ' || c == '\t' || c == '\n' || c == '\r'

/-! ## Strings -/

/-- The UTF-16 unit that four hexadecimal digits spell. -/
def unit? (a b c d : Char) : Option Nat := do
  some ((((← Text.hexValue? a) * 16 + (← Text.hexValue? b)) * 16 + (← Text.hexValue? c)) * 16 +
    (← Text.hexValue? d))

/-- The character that a backslash makes of this one. -/
def escaped? : Char → Option Char
  | '"' => some '"'
  | '\\' => some '\\'
  | '/' => some '/'
  | 'b' => some '\x08'
  | 'f' => some '\x0c'
  | 'n' => some '\n'
  | 'r' => some '\r'
  | 't' => some '\t'
  | _ => none

/-- Reads a string whose opening quote has been read. -/
def readString : List Char → Option (List JsonPiece × List Char)
  | [] => none
  | '"' :: rest => some ([], rest)
  | '\\' :: 'u' :: a :: b :: c :: d :: rest => do
    let u ← unit? a b c d
    let (pieces, rest) ← readString rest
    some (.unit u :: pieces, rest)
  | '\\' :: e :: rest => do
    let c ← escaped? e
    let (pieces, rest) ← readString rest
    some (.char c :: pieces, rest)
  | c :: rest =>
    if c = '\\' ∨ c.toNat < 0x20 then none
    else (readString rest).map fun (pieces, rest) => (.char c :: pieces, rest)

/-! ## Numbers -/

def isDigit (c : Char) : Bool := (Text.digitValue? c).isSome

/-- One or more digits. -/
def readDigits (cs : List Char) : Option (List Char × List Char) :=
  match cs.takeWhile isDigit with
  | [] => none
  | d :: ds => some (d :: ds, cs.dropWhile isDigit)

/-- The digits before the fraction: a leading zero stands alone. -/
def readWhole (cs : List Char) : Option (List Char × List Char) := do
  let (digits, rest) ← readDigits cs
  if digits.head? = some '0' ∧ digits.length ≠ 1 then none else some (digits, rest)

/-- The fraction with its point, or nothing. -/
def readFraction : List Char → Option (List Char × List Char)
  | '.' :: cs => (readDigits cs).map fun (digits, rest) => ('.' :: digits, rest)
  | cs => some ([], cs)

/-- A sign, or nothing. -/
def readSign : List Char → List Char × List Char
  | '+' :: cs => (['+'], cs)
  | '-' :: cs => (['-'], cs)
  | cs => ([], cs)

/-- The exponent with its letter, or nothing. -/
def readExponent : List Char → Option (List Char × List Char)
  | [] => some ([], [])
  | e :: cs =>
    if e = 'e' ∨ e = 'E' then
      let (sign, cs) := readSign cs
      (readDigits cs).map fun (digits, rest) => (e :: sign ++ digits, rest)
    else some ([], e :: cs)

/-- Reads a number. -/
def readNumber (cs : List Char) : Option (Json × List Char) := do
  let (minus, cs) := if cs.head? = some '-' then (['-'], cs.drop 1) else ([], cs)
  let (whole, cs) ← readWhole cs
  let (fraction, cs) ← readFraction cs
  let (exponent, cs) ← readExponent cs
  let n := (Text.digitsValue 0 whole).getD 0
  if fraction = [] ∧ exponent = [] ∧ ¬ (minus ≠ [] ∧ n = 0) then
    some (.integer (if minus = [] then n else -n), cs)
  else some (.decimal (minus ++ whole ++ fraction ++ exponent), cs)

/-! ## Values -/

mutual

/-- Reads a value after blanks. -/
def readValue : Nat → List Char → Option (Json × List Char)
  | 0, _ => none
  | depth + 1, cs =>
    match skipBlanks cs with
    | 'n' :: 'u' :: 'l' :: 'l' :: rest => some (.null, rest)
    | 't' :: 'r' :: 'u' :: 'e' :: rest => some (.bool true, rest)
    | 'f' :: 'a' :: 'l' :: 's' :: 'e' :: rest => some (.bool false, rest)
    | '"' :: rest => (readString rest).map fun (pieces, rest) => (.string pieces, rest)
    | '[' :: rest =>
      match skipBlanks rest with
      | ']' :: rest => some (.array [], rest)
      | rest => (readItems depth rest).map fun (items, rest) => (.array items, rest)
    | '\x7b' :: rest =>
      match skipBlanks rest with
      | '\x7d' :: rest => some (.object [], rest)
      | rest => (readMembers depth rest).map fun (members, rest) => (.object members, rest)
    | cs => readNumber cs

/-- Reads the items of an array and its closing bracket. -/
def readItems : Nat → List Char → Option (List Json × List Char)
  | 0, _ => none
  | depth + 1, cs => do
    let (v, rest) ← readValue depth cs
    match skipBlanks rest with
    | ',' :: rest => (readItems depth rest).map fun (vs, rest) => (v :: vs, rest)
    | ']' :: rest => some ([v], rest)
    | _ => none

/-- Reads the members of an object and its closing brace. -/
def readMembers : Nat → List Char → Option (List (List JsonPiece × Json) × List Char)
  | 0, _ => none
  | depth + 1, cs => do
    let key ← match skipBlanks cs with
      | '"' :: rest => readString rest
      | _ => none
    let rest ← match skipBlanks key.2 with
      | ':' :: rest => some rest
      | _ => none
    let (v, rest) ← readValue depth rest
    match skipBlanks rest with
    | ',' :: rest => (readMembers depth rest).map fun (ms, rest) => ((key.1, v) :: ms, rest)
    | '\x7d' :: rest => some ([(key.1, v)], rest)
    | _ => none

end

/-- Reads a text that holds one value, with blanks around it. -/
def parse? (s : String) : Option Json :=
  match readValue (2 * s.length + 2) s.toList with
  | some (v, rest) => if skipBlanks rest = [] then some v else none
  | none => none

end ReplicaRing.Json
