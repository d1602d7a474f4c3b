import ReplicaRing.Json.Form
import ReplicaRing.Proofs.FactorGrammar

/-!
# Written replication factors

A factor has many texts and is written as one of them, with no more than it takes to tell its
numbers. Every 64-bit factor is read again from its text, so the text stands for the factor: texts
that were accepted are written alike exactly if they show the same numbers.

* `ReplicationFactor.shows_text`: the text of a factor shows its numbers.
* `ReplicationFactor.fits_of_parse`: what is read has numbers of 64 bits.
* `ReplicationFactor.text_read_again`: writing and reading are inverse.
-/

namespace ReplicaRing

/-! ## Written counts -/

theorem Text.showsCount_writeCount {n : Nat} (h : n < UInt64.size) :
    ShowsCount n (writeCount n) :=
  ⟨_, .plain (head?_writeCount_ne rfl n), showsDigits_writeCount n, h⟩

theorem Json.textOfPieces?_map_char (cs : List Char) :
    textOfPieces? none (cs.map .char) = some cs := by
  induction cs with
  | nil => rfl
  | cons c cs ih =>
    rw [List.map_cons, textOfPieces?, ih]
    rfl

theorem Json.string?_ofString (s : String) : (ofString s).string? = some s := by
  show (textOfPieces? none (s.toList.map .char)).map String.ofList = _
  rw [textOfPieces?_map_char, Option.map_some, String.ofList_toList]

namespace ReplicationFactor

open Text

/-- Both numbers are numbers of 64 bits. -/
structure Fits (f : ReplicationFactor) : Prop where
  full : f.full < UInt64.size
  transient : f.transient < UInt64.size

/-! ## Written factors -/

theorem showsPart_writeCount {n : Nat} (h : n < UInt64.size) : ShowsPart n (writeCount n) :=
  have hnone : AllBlank [] := fun _ hc => nomatch hc
  ⟨_, ⟨[], [], hnone, hnone, (List.append_nil _).symm⟩, showsCount_writeCount h⟩

section
variable {f g : ReplicationFactor} {s : String}

/-- **The text of a factor shows its numbers.** -/
theorem shows_text (h : f.Fits) : Shows f.full f.transient f.text.toList := by
  rw [text]
  split
  · rename_i hzero
    rw [hzero, decimal, String.toList_ofList]
    exact .full (showsPart_writeCount h.full)
  · simp only [decimal, String.toList_append, String.toList_ofList, List.append_assoc]
    exact .both (showsPart_writeCount h.full) (showsPart_writeCount h.transient)

theorem parse_text (h : f.Fits) : parse f.text = .ok f := parse_eq_ok_iff.2 (shows_text h)

theorem text_injOn (hf : f.Fits) (hg : g.Fits) (h : f.text = g.text) : f = g := by
  have hparse := parse_text hf
  rw [h, parse_text hg] at hparse
  exact (Except.ok.inj hparse).symm

theorem ofJson?_toJson (h : f.Fits) : JsonForm.ofJson? (JsonForm.toJson f) = some f := by
  show ((Json.ofString f.text).string?.bind fun s => (parse s).toOption) = some f
  rw [Json.string?_ofString, Option.bind_some, parse_text h]
  rfl

theorem ShowsPart.lt {n : Nat} {part : List Char} (h : ShowsPart n part) : n < UInt64.size := by
  obtain ⟨_, -, _, -, -, hlt⟩ := h
  exact hlt

/-- What is read from a text has numbers of 64 bits. -/
theorem fits_of_parse (h : parse s = .ok f) : f.Fits := by
  have hshows := parse_eq_ok_iff.1 h
  generalize hb : f.transient = b at hshows
  generalize s.toList = cs at hshows
  cases hshows with
  | full hpart => exact ⟨hpart.lt, hb ▸ (by decide : 0 < UInt64.size)⟩
  | both hfull htransient => exact ⟨hfull.lt, hb ▸ htransient.lt⟩

end

/-- **Writing and reading are inverse.** A factor of 64-bit numbers is read again from its text, and
from its JSON form, so no two have the same text. The text of a factor that was read from any text
is written again as it is, and accepted texts come out alike just if they show one factor. -/
theorem text_read_again :
    (∀ f : ReplicationFactor, f.Fits →
      parse f.text = .ok f ∧ JsonForm.ofJson? (JsonForm.toJson f) = some f) ∧
    (∀ f g : ReplicationFactor, f.Fits → g.Fits → f.text = g.text → f = g) ∧
    (∀ s f, parse s = .ok f → f.Fits ∧ parse f.text = .ok f ∧
      ∀ g, parse f.text = .ok g → g.text = f.text) ∧
    ∀ s s' f f', parse s = .ok f → parse s' = .ok f' → (f.text = f'.text ↔ f = f') := by
  refine ⟨fun f h => ⟨parse_text h, ofJson?_toJson h⟩, fun f g => text_injOn, fun s f h => ?_,
    fun s s' f f' h h' => ⟨text_injOn (fits_of_parse h) (fits_of_parse h'), congrArg text⟩⟩
  have hfits := fits_of_parse h
  refine ⟨hfits, parse_text hfits, fun g hg => ?_⟩
  rw [parse_text hfits] at hg
  cases hg
  rfl

/-- The greatest factor, and texts of two others. -/
theorem text_read_again_greatest :
    let greatest : ReplicationFactor := ⟨UInt64.size - 1, UInt64.size - 1, by decide⟩
    let mixed : ReplicationFactor := ⟨3, 1, by decide⟩
    greatest.Fits ∧ parse greatest.text = .ok greatest ∧
      JsonForm.ofJson? (JsonForm.toJson greatest) = some greatest ∧
      mixed.Fits ∧ greatest.text ≠ mixed.text ∧
      parse " +03 / 0 " = .ok (ofFull 3) ∧ parse (ofFull 3).text = .ok (ofFull 3) ∧
      parse "3/1" = .ok mixed ∧ (ofFull 3).text ≠ mixed.text := by
  intro greatest mixed
  obtain ⟨hread, hinj, hcanonical, halike⟩ := text_read_again
  have hgreatest : greatest.Fits := ⟨by decide, by decide⟩
  have hfull : parse " +03 / 0 " = .ok (ofFull 3) := by decide
  have hboth : parse "3/1" = .ok mixed := by decide
  have hmixed := (hcanonical _ _ hboth).1
  refine ⟨hgreatest, (hread _ hgreatest).1, (hread _ hgreatest).2, hmixed, fun h => ?_, hfull,
    (hcanonical _ _ hfull).2.1, hboth, fun h => ?_⟩
  · exact absurd (hinj _ _ hgreatest hmixed h) (by decide)
  · exact absurd ((halike _ _ _ _ hfull hboth).1 h) (by decide)

end ReplicationFactor

end ReplicaRing
