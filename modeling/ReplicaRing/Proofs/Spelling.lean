import Mathlib.Data.List.DropRight
import ReplicaRing.Json.Parser
import ReplicaRing.Proofs.Numerals

/-!
# Spellings of JSON objects

One object has many texts: blanks may stand around each of its parts, and a character of a string
may stand for itself or be escaped. The relations here say which texts those are, of objects whose
values are strings and natural numbers, without regard to how a reader goes through them.

* `Json.SpellsObject`: the texts of an object.
* `Json.parse?_of_spellsObject`: the reader reads each of them.
-/

namespace ReplicaRing.Json

/-! ## Blanks -/

def IsBlank (c : Char) : Prop := c = ' ' ∨ c = '\t' ∨ c = '\n' ∨ c = '\r'

instance : DecidablePred IsBlank := fun _ => inferInstanceAs (Decidable (_ ∨ _))

/-- Nothing but blanks. -/
def Blank (cs : List Char) : Prop := ∀ c ∈ cs, IsBlank c

instance : DecidablePred Blank := List.decidableBAll IsBlank

theorem skipBlanks_append {bs : List Char} (h : Blank bs) (cs : List Char) :
    skipBlanks (bs ++ cs) = skipBlanks cs :=
  List.dropWhile_append_of_pos fun c hc => by simpa [IsBlank, or_assoc] using h c hc

theorem skipBlanks_blank {bs : List Char} (h : Blank bs) : skipBlanks bs = [] := by
  simpa [skipBlanks] using skipBlanks_append h []

theorem skipBlanks_cons {c : Char} (h : ¬ IsBlank c) (cs : List Char) :
    skipBlanks (c :: cs) = c :: cs :=
  List.dropWhile_cons_of_neg (by simpa [IsBlank, or_assoc] using h)

/-- Past blanks, the first character that is none. -/
theorem skipBlanks_append_cons {bs : List Char} (h : Blank bs) {c : Char} (hc : ¬ IsBlank c)
    (cs : List Char) : skipBlanks (bs ++ c :: cs) = c :: cs :=
  (skipBlanks_append h _).trans (skipBlanks_cons hc cs)

/-! ## Strings -/

/-- The texts of one item of a string. -/
inductive SpellsPiece : JsonPiece → List Char → Prop
  | raw {c : Char} (hquote : c ≠ '"') (hescape : c ≠ '\\') (hcontrol : 0x20 ≤ c.toNat) :
    SpellsPiece (.char c) [c]
  | escape {e c : Char} (h : escaped? e = some c) : SpellsPiece (.char c) ['\\', e]
  | unit {a b c d : Char} {u : Nat} (h : unit? a b c d = some u) :
    SpellsPiece (.unit u) ['\\', 'u', a, b, c, d]

/-- The texts of a string, without its quotes. -/
inductive SpellsPieces : List JsonPiece → List Char → Prop
  | nil : SpellsPieces [] []
  | cons {p : JsonPiece} {ps : List JsonPiece} {cs ds : List Char} (h : SpellsPiece p cs)
    (hs : SpellsPieces ps ds) : SpellsPieces (p :: ps) (cs ++ ds)

/-- No character needs an escape. -/
def Plain (cs : List Char) : Prop := ∀ c ∈ cs, c ≠ '"' ∧ c ≠ '\\' ∧ 0x20 ≤ c.toNat

instance : DecidablePred Plain :=
  List.decidableBAll fun c => c ≠ '"' ∧ c ≠ '\\' ∧ 0x20 ≤ c.toNat

/-- Plain characters stand for themselves. -/
theorem spellsPieces_of_plain {cs : List Char} (h : Plain cs) :
    SpellsPieces (cs.map .char) cs := by
  induction cs with
  | nil => exact .nil
  | cons c cs ih =>
    obtain ⟨hquote, hescape, hcontrol⟩ := h c (.head _)
    exact .cons (.raw hquote hescape hcontrol) (ih fun d hd => h d (.tail _ hd))

theorem readString_of_spellsPiece {p : JsonPiece} {cs : List Char} (h : SpellsPiece p cs)
    (rest : List Char) :
    readString (cs ++ rest) = (readString rest).map fun r => (p :: r.1, r.2) := by
  cases h with
  | @raw c hquote hescape hcontrol =>
    have hplain : ¬ (c = '\\' ∨ c.toNat < 0x20) := by simp [hescape, hcontrol]
    rw [List.singleton_append, readString, if_neg hplain]
    · exact hquote
    · exact fun _ _ _ _ _ hc => absurd hc hescape
    · exact fun _ _ hc => absurd hc hescape
  | @escape e c h =>
    -- the letter of a UTF-16 unit escapes nothing
    have hunit : e ≠ 'u' := by
      rintro rfl
      cases h
    show readString ('\\' :: e :: rest) = _
    rw [readString, h, Option.map_eq_bind]
    · rfl
    · exact fun _ _ _ _ _ he => absurd he hunit
  | @unit a b c d u h =>
    show readString ('\\' :: 'u' :: a :: b :: c :: d :: rest) = _
    rw [readString, h, Option.map_eq_bind]
    rfl

theorem readString_of_spellsPieces {ps : List JsonPiece} {cs : List Char} (h : SpellsPieces ps cs)
    (rest : List Char) : readString (cs ++ '"' :: rest) = some (ps, rest) := by
  induction h with
  | nil => rfl
  | cons h _ ih =>
    rw [List.append_assoc, readString_of_spellsPiece h, ih]
    rfl

/-! ## Numbers -/

/-- What may follow a value in an object. -/
def IsDelimiter (c : Char) : Prop := IsBlank c ∨ c = ',' ∨ c = '\x7d'

theorem isDigit_of_ascii {c : Char} (h : c.isDigit = true) : isDigit c = true := by
  rw [isDigit, Text.digitValue?_of_isDigit h, Option.isSome_some]

theorem isDigit_of_delimiter {c : Char} (h : IsDelimiter c) : isDigit c = false := by
  rcases h with (rfl | rfl | rfl | rfl) | rfl | rfl <;> rfl

/-- A number is read to its last digit. -/
theorem readDigits_writeCount (n : Nat) {c : Char} (h : IsDelimiter c) (rest : List Char) :
    readDigits (Text.writeCount n ++ c :: rest) = some (Text.writeCount n, c :: rest) := by
  have hdigits : ∀ d ∈ Text.writeCount n, isDigit d = true := fun d hd =>
    isDigit_of_ascii (Text.isDigit_of_mem_writeCount hd)
  have hend : ¬ isDigit c = true := by simp [isDigit_of_delimiter h]
  rw [readDigits, List.takeWhile_append_of_pos hdigits, List.dropWhile_append_of_pos hdigits,
    List.takeWhile_cons_of_neg hend, List.dropWhile_cons_of_neg hend, List.append_nil]
  cases hcount : Text.writeCount n with
  | nil => exact absurd hcount (Text.writeCount_ne_nil n)
  | cons d ds => rfl

theorem readWhole_writeCount (n : Nat) {c : Char} (h : IsDelimiter c) (rest : List Char) :
    readWhole (Text.writeCount n ++ c :: rest) = some (Text.writeCount n, c :: rest) := by
  have hzero : ¬ ((Text.writeCount n).head? = some '0' ∧ (Text.writeCount n).length ≠ 1) := by
    rintro ⟨hzero, hlength⟩
    rw [Text.eq_zero_of_head?_writeCount hzero] at hlength
    exact hlength rfl
  rw [readWhole, readDigits_writeCount n h]
  exact if_neg hzero

theorem readNumber_writeCount (n : Nat) {c : Char} (h : IsDelimiter c) (rest : List Char) :
    readNumber (Text.writeCount n ++ c :: rest) = some (.integer n, c :: rest) := by
  have hfraction : readFraction (c :: rest) = some ([], c :: rest) := by
    rcases h with (rfl | rfl | rfl | rfl) | rfl | rfl <;> rfl
  have hexponent : readExponent (c :: rest) = some ([], c :: rest) := by
    rcases h with (rfl | rfl | rfl | rfl) | rfl | rfl <;> rfl
  have hsign : (Text.writeCount n ++ c :: rest).head? ≠ some '-' := by
    obtain ⟨d, ds, hcount, hd⟩ := Text.exists_writeCount_eq_cons n
    rw [hcount]
    rintro ⟨⟩
    cases hd
  rw [readNumber, if_neg hsign]
  simp [readWhole_writeCount n h, hfraction, hexponent, Text.digitsValue_writeCount]

/-! ## Values -/

/-- The texts of a string or a natural number. -/
inductive SpellsValue : Json → List Char → Prop
  | string {ps : List JsonPiece} {cs : List Char} (h : SpellsPieces ps cs) :
    SpellsValue (.string ps) ('"' :: (cs ++ ['"']))
  | count (n : Nat) : SpellsValue (.integer n) (Text.writeCount n)

theorem readValue_of_isDigit {cs ds : List Char} {d : Char} (hcs : skipBlanks cs = d :: ds)
    (hd : d.isDigit = true) (depth : Nat) : readValue (depth + 1) cs = readNumber (d :: ds) := by
  rw [readValue, hcs]
  split
  case h_7 => rfl
  all_goals
    rename_i heq
    cases heq
    cases hd

theorem readValue_of_spellsValue {v : Json} {bs cs : List Char} (hb : Blank bs)
    (h : SpellsValue v cs) {c : Char} (hc : IsDelimiter c) (depth : Nat) (rest : List Char) :
    readValue (depth + 1) (bs ++ (cs ++ c :: rest)) = some (v, c :: rest) := by
  cases h with
  | @string ps cs h =>
    have hstart : skipBlanks (bs ++ ('"' :: (cs ++ ['"']) ++ c :: rest)) =
        '"' :: (cs ++ '"' :: c :: rest) := by
      rw [List.cons_append, List.append_assoc, List.singleton_append,
        skipBlanks_append_cons hb (by decide)]
    rw [readValue, hstart]
    show (readString (cs ++ '"' :: c :: rest)).map _ = _
    rw [readString_of_spellsPieces h]
    rfl
  | count n =>
    obtain ⟨d, ds, hcount, hd⟩ := Text.exists_writeCount_eq_cons n
    have hblank : ¬ IsBlank d := by
      rintro (rfl | rfl | rfl | rfl) <;> cases hd
    have hstart : skipBlanks (bs ++ (Text.writeCount n ++ c :: rest)) = d :: (ds ++ c :: rest) := by
      rw [hcount, List.cons_append, skipBlanks_append_cons hb hblank]
    rw [readValue_of_isDigit hstart hd, ← List.cons_append, ← hcount, readNumber_writeCount n hc]

/-! ## Objects -/

/-- The texts of a member, with blanks around its parts. -/
inductive SpellsMember : List JsonPiece × Json → List Char → Prop
  | mk {key : List JsonPiece} {v : Json} {b₁ ks b₂ b₃ vs b₄ : List Char}
    (hkey : SpellsPieces key ks) (hv : SpellsValue v vs) (h₁ : Blank b₁) (h₂ : Blank b₂)
    (h₃ : Blank b₃) (h₄ : Blank b₄) :
    SpellsMember (key, v) (b₁ ++ '"' :: (ks ++ '"' :: (b₂ ++ ':' :: (b₃ ++ (vs ++ b₄)))))

/-- The texts of one or more members, with commas between them. -/
inductive SpellsMembers : List (List JsonPiece × Json) → List Char → Prop
  | one {m : List JsonPiece × Json} {cs : List Char} (h : SpellsMember m cs) : SpellsMembers [m] cs
  | more {m : List JsonPiece × Json} {ms : List (List JsonPiece × Json)} {cs ds : List Char}
    (h : SpellsMember m cs) (hs : SpellsMembers ms ds) : SpellsMembers (m :: ms) (cs ++ ',' :: ds)

/-- The texts of an object with these members, of which there is at least one. -/
def SpellsObject (ms : List (List JsonPiece × Json)) (cs : List Char) : Prop :=
  ∃ b₁ ds b₂, Blank b₁ ∧ SpellsMembers ms ds ∧ Blank b₂ ∧
    cs = b₁ ++ '\x7b' :: (ds ++ '\x7d' :: b₂)

theorem spellsMember_of_plain {key bs cs vs : List Char} {v : Json} (hkey : Plain key)
    (hv : SpellsValue v vs) (hb : Blank bs) (hc : Blank cs) :
    SpellsMember (key.map .char, v) (bs ++ '"' :: (key ++ '"' :: ':' :: (cs ++ vs))) := by
  have hblank : Blank [] := fun _ h => nomatch h
  simpa using SpellsMember.mk (spellsPieces_of_plain hkey) hv hb hblank hc hblank

/-- One member is read up to the character that ends it. -/
theorem readMembers_of_spellsMember {m : List JsonPiece × Json} {cs : List Char}
    (h : SpellsMember m cs) {c : Char} (hc : c = ',' ∨ c = '\x7d') (depth : Nat)
    (rest : List Char) :
    readMembers (depth + 2) (cs ++ c :: rest) =
      if c = ',' then (readMembers (depth + 1) rest).map fun r => (m :: r.1, r.2)
      else some ([m], rest) := by
  cases h with
  | @mk key v b₁ ks b₂ b₃ vs b₄ hkey hv h₁ h₂ h₃ h₄ =>
    -- a value ends before the blanks that follow it, if there are any
    have hvalue : readValue (depth + 1) (b₃ ++ (vs ++ (b₄ ++ c :: rest))) =
        some (v, b₄ ++ c :: rest) := by
      cases b₄ with
      | nil => exact readValue_of_spellsValue h₃ hv (.inr hc) depth rest
      | cons d ds => exact readValue_of_spellsValue h₃ hv (.inl (h₄ d (.head _))) depth _
    have hquote : ¬ IsBlank '"' := by decide
    have hcolon : ¬ IsBlank ':' := by decide
    have hend : ¬ IsBlank c := by rcases hc with rfl | rfl <;> decide
    simp only [List.append_assoc, List.cons_append]
    rw [readMembers, skipBlanks_append_cons h₁ hquote]
    simp only [readString_of_spellsPieces hkey, Option.bind_eq_bind, Option.bind_some,
      skipBlanks_append_cons h₂ hcolon, hvalue, skipBlanks_append_cons h₄ hend]
    rcases hc with rfl | rfl <;> rfl

section
variable {ms : List (List JsonPiece × Json)} {cs : List Char}

theorem readMembers_of_spellsMembers (h : SpellsMembers ms cs) {depth : Nat}
    (hdepth : ms.length < depth) (rest : List Char) :
    readMembers depth (cs ++ '\x7d' :: rest) = some (ms, rest) := by
  induction h generalizing depth with
  | one h =>
    obtain ⟨d, rfl⟩ := Nat.exists_eq_add_of_le' hdepth
    exact readMembers_of_spellsMember h (.inr rfl) d rest
  | @more m ms cs ds h hs ih =>
    obtain ⟨d, rfl⟩ := Nat.exists_eq_add_of_le' (show 2 ≤ depth by grind)
    rw [List.append_assoc, List.cons_append, readMembers_of_spellsMember h (.inl rfl), if_pos rfl,
      ih (by grind)]
    rfl

theorem length_le_of_spellsMembers (h : SpellsMembers ms cs) : ms.length ≤ cs.length := by
  induction h with
  | one h =>
    cases h
    simp only [List.length_cons, List.length_append, List.length_nil]
    omega
  | more h hs ih =>
    simp only [List.length_cons, List.length_append]
    omega

/-- Past blanks, members start with the quote of a key. -/
theorem skipBlanks_of_spellsMembers (h : SpellsMembers ms cs) (rest : List Char) :
    ∃ ds, skipBlanks (cs ++ rest) = '"' :: ds := by
  have hmember : ∀ {m : List JsonPiece × Json} {cs : List Char}, SpellsMember m cs →
      ∀ rest, ∃ ds, skipBlanks (cs ++ rest) = '"' :: ds := by
    rintro m cs ⟨hkey, hv, h₁, h₂, h₃, h₄⟩ rest
    rw [List.append_assoc, List.cons_append, skipBlanks_append_cons h₁ (by decide)]
    exact ⟨_, rfl⟩
  cases h with
  | one h => exact hmember h rest
  | more h hs =>
    rw [List.append_assoc]
    exact hmember h _

theorem readMembers_skipBlanks (depth : Nat) (cs : List Char) :
    readMembers depth (skipBlanks cs) = readMembers depth cs := by
  cases depth with
  | zero => rfl
  | succ depth => rw [readMembers, readMembers, skipBlanks, skipBlanks, List.dropWhile_idempotent]

/-- **Every text of an object is read**, and as the object that it spells. -/
theorem parse?_of_spellsObject {text : String} (h : SpellsObject ms text.toList) :
    parse? text = some (.object ms) := by
  obtain ⟨b₁, ds, b₂, h₁, hs, h₂, htext⟩ := h
  have hdepth : ms.length < 2 * text.length + 1 := by
    have hle := length_le_of_spellsMembers hs
    rw [← String.length_toList, htext]
    simp only [List.length_append, List.length_cons]
    omega
  have hbrace : ¬ IsBlank '\x7b' := by decide
  obtain ⟨es, hes⟩ := skipBlanks_of_spellsMembers hs ('\x7d' :: b₂)
  have hmembers : readMembers (2 * text.length + 1) ('"' :: es) = some (ms, b₂) := by
    rw [← hes, readMembers_skipBlanks, readMembers_of_spellsMembers hs hdepth]
  have hvalue : readValue (2 * text.length + 2) text.toList = some (.object ms, b₂) := by
    rw [readValue, htext, skipBlanks_append_cons h₁ hbrace]
    simp only [hes]
    show (readMembers _ ('"' :: es)).map _ = _
    rw [hmembers]
    rfl
  rw [parse?, hvalue]
  exact if_pos (skipBlanks_blank h₂)

end

end ReplicaRing.Json
