/-!
# White space at the ends of a text

`isBlank` is the Unicode property White_Space, a closed list of 25 code points, and `trim` drops
blanks at both ends of a text.

* `isBlank_of_isWhitespace`: every ASCII blank is in the class.
* `trim_of_ends`: a text that neither starts nor ends with a blank is left as it is.
-/

namespace ReplicaRing.Text

/-- The characters with the Unicode property White_Space. -/
def isBlank (c : Char) : Bool :=
  let n := c.toNat
  (9 ≤ n && n ≤ 13) || n == 0x20 || n == 0x85 || n == 0xA0 || n == 0x1680 ||
    (0x2000 ≤ n && n ≤ 0x200A) || n == 0x2028 || n == 0x2029 || n == 0x202F ||
    n == 0x205F || n == 0x3000

/-- The text without the blanks at its start. -/
def trimStart (cs : List Char) : List Char := cs.dropWhile isBlank

/-- The text without the blanks at its two ends. -/
def trim (cs : List Char) : List Char := (trimStart (trimStart cs).reverse).reverse

theorem isBlank_of_isWhitespace {c : Char} (h : c.isWhitespace) : isBlank c := by
  simp only [Char.isWhitespace, Bool.or_eq_true, decide_eq_true_eq] at h
  rcases h with ((h | h) | h) | h <;> subst h <;> rfl

theorem trimStart_of_head {c : Char} {cs : List Char} (h : isBlank c = false) :
    trimStart (c :: cs) = c :: cs := by
  simp [trimStart, h]

theorem trim_of_ends {cs : List Char} (hs : ∀ c, cs.head? = some c → isBlank c = false)
    (he : ∀ c, cs.getLast? = some c → isBlank c = false) : trim cs = cs := by
  have start : ∀ ds : List Char, (∀ c, ds.head? = some c → isBlank c = false) →
      trimStart ds = ds := by
    intro ds h
    cases ds with
    | nil => rfl
    | cons d ds => exact trimStart_of_head (h d rfl)
  rw [trim, start cs hs, start cs.reverse (by simpa using he), List.reverse_reverse]

end ReplicaRing.Text
