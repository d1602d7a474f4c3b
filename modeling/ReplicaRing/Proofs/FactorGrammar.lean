import ReplicaRing.Proofs.NumeralGrammar
import ReplicaRing.Proofs.Results
import ReplicaRing.ReplicationFactor

/-!
# The grammar of replication factors

A factor is one numeral, or two with a slash between them, and blanks may stand around each. The
reader takes blanks off the whole text and again off its parts, which comes to the same as taking
them off the parts of the text at its first slash.

* `ReplicationFactor.Shows`: the texts of a factor; `ReplicationFactor.Fault`: what is wrong with
  others.
* `ReplicationFactor.parse_of_not_mem`, `ReplicationFactor.parse_of_cut`: what is read from a text
  without a slash, and from one that is cut at its first.
* `ReplicationFactor.parse_follows_grammar`: what is read from every text.
-/

namespace ReplicaRing

namespace Text

theorem slash_not_mem_of_allBlank {cs : List Char} (h : AllBlank cs) : '/' ∉ cs := fun hm => by
  cases h _ hm

theorem slash_not_mem_of_allDigits {cs : List Char} (h : AllDigits cs) : '/' ∉ cs := fun hm => by
  cases h _ hm

theorem ShowsCount.slash_not_mem {n : Nat} {cs : List Char} (h : ShowsCount n cs) : '/' ∉ cs := by
  obtain ⟨ds, hsign, ⟨-, hdigits, -⟩, -⟩ := h
  cases hsign with
  | plus => simpa using slash_not_mem_of_allDigits hdigits
  | plain => exact slash_not_mem_of_allDigits hdigits

end Text

namespace ReplicationFactor

open Text

/-! ## Parts -/

/-- A numeral for `n`, with blanks around it. -/
def ShowsPart (n : Nat) (part : List Char) : Prop := ∃ cs, Padded cs part ∧ ShowsCount n cs

/-- What is wrong with a part, blanks around it aside. -/
def PartFault (part : List Char) (reason : NumeralError) : Prop :=
  ∃ cs, Padded cs part ∧ Bare cs ∧ CountFault cs reason

section
variable {spec : String} {part : List Char} {n : Nat}

theorem ShowsPart.slash_not_mem (h : ShowsPart n part) : '/' ∉ part := by
  obtain ⟨cs, ⟨front, back, hfront, hback, rfl⟩, hcount⟩ := h
  simp [slash_not_mem_of_allBlank hfront, slash_not_mem_of_allBlank hback, hcount.slash_not_mem]

theorem readPart_eq_ok_iff : readPart spec part = .ok n ↔ ShowsPart n part := by
  rw [readPart, mapError_eq_ok_iff, readCount_eq_ok_iff]
  exact (exists_padded_iff fun _ => ShowsCount.bare).symm

theorem readPart_eq_error_iff {e : FactorError} : readPart spec part = .error e ↔
    ∃ reason, PartFault part reason ∧ .malformed spec reason = e := by
  rw [readPart, mapError_eq_error_iff]
  refine exists_congr fun reason => and_congr_left fun _ => ?_
  rw [readCount_eq_error_iff, PartFault, exists_padded_iff fun _ h => h.1]
  exact (and_iff_right (bare_trim part)).symm

/-- Blanks around a part do not matter. -/
theorem readPart_congr {part' : List Char} (h : trim part = trim part') :
    readPart spec part = readPart spec part' := by
  rw [readPart, readPart, h]

theorem withTransient_eq_ok_iff {a b : Nat} {f : ReplicationFactor} :
    withTransient a b = .ok f ↔ f.full = a ∧ f.transient = b := by
  obtain ⟨full, transient, hzero⟩ := f
  rw [withTransient]
  split
  · simp [eq_comm]
  · rename_i h
    constructor
    · rintro ⟨⟩
    · rintro ⟨rfl, rfl⟩
      exact absurd hzero h

theorem withTransient_eq_error_iff {a b : Nat} {e : FactorError} :
    withTransient a b = .error e ↔ (a = 0 ∧ 0 < b) ∧ .transientWithoutFull a b = e := by
  rw [withTransient]
  split
  · rename_i h
    constructor
    · rintro ⟨⟩
    · rintro ⟨⟨ha, hb⟩, -⟩
      have := h ha
      omega
  · rename_i h
    rw [Except.error.injEq]
    exact (and_iff_right (by omega)).symm

end

/-! ## Texts -/

/-- The texts that show so many full and so many transient replicas. -/
inductive Shows : Nat → Nat → List Char → Prop
  | full {a : Nat} {cs : List Char} (h : ShowsPart a cs) : Shows a 0 cs
  | both {a b : Nat} {full transient : List Char} (hfull : ShowsPart a full)
    (htransient : ShowsPart b transient) : Shows a b (full ++ '/' :: transient)

/-- What is wrong with a text: its full part, which ends at the first slash, or else the rest. -/
inductive Fault : List Char → NumeralError → Prop
  | whole {cs : List Char} {reason : NumeralError} (hcs : '/' ∉ cs) (h : PartFault cs reason) :
    Fault cs reason
  | full {full transient : List Char} {reason : NumeralError} (hfull : '/' ∉ full)
    (h : PartFault full reason) : Fault (full ++ '/' :: transient) reason
  | transient {a : Nat} {full transient : List Char} {reason : NumeralError}
    (hfull : ShowsPart a full) (h : PartFault transient reason) :
    Fault (full ++ '/' :: transient) reason

section
variable {s : String} {cs full transient : List Char} {a b : Nat} {reason : NumeralError}

theorem shows_iff_of_not_mem (h : '/' ∉ cs) : Shows a b cs ↔ ShowsPart a cs ∧ b = 0 := by
  constructor
  · rintro (hpart | _)
    · exact ⟨hpart, rfl⟩
    · simp at h
  · rintro ⟨hpart, rfl⟩
    exact .full hpart

theorem shows_iff_of_cut (h : '/' ∉ full) :
    Shows a b (full ++ '/' :: transient) ↔ ShowsPart a full ∧ ShowsPart b transient := by
  constructor
  · intro hshows
    generalize hcut : full ++ '/' :: transient = cs at hshows
    cases hshows with
    | full hpart =>
      -- the text of a single number has no slash
      exact absurd hpart.slash_not_mem (by simp [← hcut])
    | both hfull htransient =>
      obtain ⟨rfl, rfl⟩ := append_cons_inj_of_not_mem h hfull.slash_not_mem hcut
      exact ⟨hfull, htransient⟩
  · exact fun hparts => .both hparts.1 hparts.2

theorem fault_iff_of_not_mem (h : '/' ∉ cs) : Fault cs reason ↔ PartFault cs reason := by
  constructor
  · rintro (⟨-, hpart⟩ | _ | _)
    · exact hpart
    · simp at h
    · simp at h
  · exact .whole h

theorem fault_iff_of_cut (h : '/' ∉ full) : Fault (full ++ '/' :: transient) reason ↔
    PartFault full reason ∨ (∃ a, ShowsPart a full) ∧ PartFault transient reason := by
  constructor
  · intro hfault
    generalize hcut : full ++ '/' :: transient = cs at hfault
    cases hfault with
    | whole hcs => exact absurd hcs (by simp [← hcut])
    | full hfull hpart =>
      obtain ⟨rfl, rfl⟩ := append_cons_inj_of_not_mem h hfull hcut
      exact .inl hpart
    | transient hfull hpart =>
      obtain ⟨rfl, rfl⟩ := append_cons_inj_of_not_mem h hfull.slash_not_mem hcut
      exact .inr ⟨⟨_, hfull⟩, hpart⟩
  · rintro (hpart | ⟨⟨a, hfull⟩, hpart⟩)
    · exact .full h hpart
    · exact .transient hfull hpart

/-! ## Reading -/

theorem dropWhile_eq_nil_of_not_mem (h : '/' ∉ cs) : cs.dropWhile (· != '/') = [] :=
  List.dropWhile_eq_nil_iff.2 fun _ hc => bne_iff_ne.2 (ne_of_mem_of_not_mem hc h)

/-- **Without a slash** the whole text is the number of full replicas. -/
theorem parse_of_not_mem (h : '/' ∉ s.toList) :
    parse s = (readPart s s.toList).map ofFull := by
  have htrim : '/' ∉ trim s.toList := by
    obtain ⟨front, back, -, -, hpad⟩ := padded_trim s.toList
    rw [hpad] at h
    simp only [List.mem_append, not_or] at h
    exact h.2.1
  rw [parse, dropWhile_eq_nil_of_not_mem htrim]
  show (readPart s (trim s.toList)).map ofFull = _
  rw [readPart_congr (trim_trim _)]

/-- **With a slash** the text is cut at the first one. -/
theorem parse_of_cut (hs : s.toList = full ++ '/' :: transient) (h : '/' ∉ full) :
    parse s = (readPart s full).bind fun a => (readPart s transient).bind (withTransient a) := by
  -- the slash is not among the blanks that the first trimming takes off
  obtain ⟨front, back, hfront, hback, hpad⟩ := padded_trim s.toList
  have hmem : '/' ∈ trim s.toList := by
    have hslash : '/' ∈ s.toList := by simp [hs]
    rw [hpad] at hslash
    simpa [slash_not_mem_of_allBlank hfront, slash_not_mem_of_allBlank hback] using hslash
  obtain ⟨full', transient', hcut, hfull'⟩ := List.eq_append_cons_of_mem hmem
  have hfront' : '/' ∉ front ++ full' := by
    simp [slash_not_mem_of_allBlank hfront, hfull']
  have hwhole : full ++ '/' :: transient = front ++ full' ++ '/' :: (transient' ++ back) := by
    rw [← hs, hpad, hcut]
    simp
  have hparts := append_cons_inj_of_not_mem h hfront' hwhole
  have hbefore : ∀ c ∈ full', (c != '/') = true := fun _ hc =>
    bne_iff_ne.2 (ne_of_mem_of_not_mem hc hfull')
  rw [parse, hcut, List.dropWhile_append_of_pos hbefore, List.takeWhile_append_of_pos hbefore,
    List.dropWhile_cons_of_neg (by decide), List.takeWhile_cons_of_neg (by decide),
    List.append_nil, hparts.1, hparts.2, readPart_congr (trim_append_left hfront full'),
    readPart_congr (trim_append_right hback transient')]
  rfl

theorem parse_eq_ok_iff {f : ReplicationFactor} :
    parse s = .ok f ↔ Shows f.full f.transient s.toList := by
  by_cases h : '/' ∈ s.toList
  · obtain ⟨full, transient, hs, hfull⟩ := List.eq_append_cons_of_mem h
    rw [parse_of_cut hs hfull, hs, shows_iff_of_cut hfull]
    simp only [bind_eq_ok_iff, readPart_eq_ok_iff, withTransient_eq_ok_iff]
    constructor
    · rintro ⟨a, ha, b, hb, rfl, rfl⟩
      exact ⟨ha, hb⟩
    · exact fun hparts => ⟨_, hparts.1, _, hparts.2, rfl, rfl⟩
  · rw [parse_of_not_mem h, shows_iff_of_not_mem h, map_eq_ok_iff]
    simp only [readPart_eq_ok_iff]
    constructor
    · rintro ⟨a, ha, rfl⟩
      exact ⟨ha, rfl⟩
    · obtain ⟨a, b, hzero⟩ := f
      rintro ⟨ha, rfl⟩
      exact ⟨a, ha, rfl⟩

theorem parse_eq_transientWithoutFull_iff :
    parse s = .error (.transientWithoutFull a b) ↔ Shows a b s.toList ∧ a = 0 ∧ 0 < b := by
  by_cases h : '/' ∈ s.toList
  · obtain ⟨full, transient, hs, hfull⟩ := List.eq_append_cons_of_mem h
    rw [parse_of_cut hs hfull, hs, shows_iff_of_cut hfull]
    simp only [bind_eq_error_iff, readPart_eq_error_iff, readPart_eq_ok_iff,
      withTransient_eq_error_iff, reduceCtorEq, and_false, exists_false, false_or,
      FactorError.transientWithoutFull.injEq]
    constructor
    · rintro ⟨a, ha, b, hb, hnone, rfl, rfl⟩
      exact ⟨⟨ha, hb⟩, hnone⟩
    · rintro ⟨⟨ha, hb⟩, hnone⟩
      exact ⟨a, ha, b, hb, hnone, rfl, rfl⟩
  · rw [parse_of_not_mem h, shows_iff_of_not_mem h, map_eq_error_iff, readPart_eq_error_iff]
    simp only [reduceCtorEq, and_false, exists_false, false_iff]
    rintro ⟨⟨-, rfl⟩, -, hpos⟩
    exact Nat.lt_irrefl _ hpos

theorem parse_eq_malformed_iff {spec : String} :
    parse s = .error (.malformed spec reason) ↔ spec = s ∧ Fault s.toList reason := by
  by_cases h : '/' ∈ s.toList
  · obtain ⟨full, transient, hs, hfull⟩ := List.eq_append_cons_of_mem h
    rw [parse_of_cut hs hfull, hs, fault_iff_of_cut hfull]
    simp only [bind_eq_error_iff, readPart_eq_error_iff, readPart_eq_ok_iff,
      withTransient_eq_error_iff, reduceCtorEq, and_false, exists_false, or_false,
      FactorError.malformed.injEq]
    constructor
    · rintro (⟨_, hpart, rfl, rfl⟩ | ⟨a, ha, _, hpart, rfl, rfl⟩)
      · exact ⟨rfl, .inl hpart⟩
      · exact ⟨rfl, .inr ⟨⟨a, ha⟩, hpart⟩⟩
    · rintro ⟨rfl, hpart | ⟨⟨a, ha⟩, hpart⟩⟩
      · exact .inl ⟨reason, hpart, rfl, rfl⟩
      · exact .inr ⟨a, ha, reason, hpart, rfl, rfl⟩
  · rw [parse_of_not_mem h, fault_iff_of_not_mem h, map_eq_error_iff, readPart_eq_error_iff]
    simp only [FactorError.malformed.injEq]
    constructor
    · rintro ⟨_, hpart, rfl, rfl⟩
      exact ⟨rfl, hpart⟩
    · rintro ⟨rfl, hpart⟩
      exact ⟨reason, hpart, rfl, rfl⟩

/-- A text that shows no numbers is malformed, and only such a text. -/
theorem exists_malformed_iff :
    (∃ reason, parse s = .error (.malformed s reason)) ↔ ¬∃ a b, Shows a b s.toList := by
  constructor
  · rintro ⟨reason, hparse⟩ ⟨a, b, hshows⟩
    by_cases hnone : a = 0 ∧ 0 < b
    · rw [parse_eq_transientWithoutFull_iff.2 ⟨hshows, hnone⟩] at hparse
      cases hparse
    · have hok : parse s = .ok ⟨a, b, fun ha => by omega⟩ := parse_eq_ok_iff.2 hshows
      rw [hok] at hparse
      cases hparse
  · intro h
    cases hparse : parse s with
    | ok f => exact absurd ⟨_, _, parse_eq_ok_iff.1 hparse⟩ h
    | error e =>
      cases e with
      | malformed spec reason =>
        obtain ⟨rfl, -⟩ := parse_eq_malformed_iff.1 hparse
        exact ⟨reason, rfl⟩
      | transientWithoutFull a b =>
        exact absurd ⟨a, b, (parse_eq_transientWithoutFull_iff.1 hparse).1⟩ h

end

/-- **The grammar decides what is read.** A text that shows numbers is the factor of these, unless
there are transient replicas and no full ones, and then it is refused for that. Every other text is
malformed. The error shows it as it was given, blanks and all, with what is wrong with the number of
full replicas if that is no numeral, and else with the other number. -/
theorem parse_follows_grammar (s : String) :
    (∀ a b, (∃ f, parse s = .ok f ∧ f.full = a ∧ f.transient = b) ↔
      Shows a b s.toList ∧ ¬(a = 0 ∧ 0 < b)) ∧
    (∀ a b, parse s = .error (.transientWithoutFull a b) ↔
      Shows a b s.toList ∧ a = 0 ∧ 0 < b) ∧
    ((∃ reason, parse s = .error (.malformed s reason)) ↔ ¬∃ a b, Shows a b s.toList) ∧
    ∀ spec reason, parse s = .error (.malformed spec reason) ↔
      spec = s ∧ Fault s.toList reason := by
  refine ⟨fun a b => ⟨?_, fun ⟨hshows, hsome⟩ => ?_⟩,
    fun _ _ => parse_eq_transientWithoutFull_iff, exists_malformed_iff,
    fun _ _ => parse_eq_malformed_iff⟩
  · rintro ⟨f, hparse, rfl, rfl⟩
    have hzero := f.transient_eq_zero
    exact ⟨parse_eq_ok_iff.1 hparse, by omega⟩
  · exact ⟨⟨a, b, fun ha => by omega⟩, parse_eq_ok_iff.2 hshows, rfl, rfl⟩

/-- Only the first slash cuts, so a second one is no digit. -/
example : parse "3/1/1" = .error (.malformed "3/1/1" .invalidDigit) := by decide

end ReplicationFactor

end ReplicaRing
