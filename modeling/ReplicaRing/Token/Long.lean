import ReplicaRing.Order
import ReplicaRing.Text.Blank
import ReplicaRing.Text.Numeral
import ReplicaRing.Text.Quoted
import ReplicaRing.Token

/-!
# Long tokens

The token space of the 64-bit signed integers, which hashed keys are spread over. Its origin is
the least of them, and its greatest is followed by the origin.

* `LongToken.parse` reads a decimal numeral with blanks at its ends; `LongToken.text` writes one.
-/

namespace ReplicaRing

/-- A signed 64-bit token. -/
structure LongToken where
  value : Int64
  deriving DecidableEq

namespace LongToken

instance : LE LongToken := ⟨fun a b => a.value ≤ b.value⟩
instance : LT LongToken := ⟨fun a b => a.value < b.value⟩
instance : DecidableLE LongToken := fun a b => inferInstanceAs (Decidable (a.value ≤ b.value))
instance : DecidableLT LongToken := fun a b => inferInstanceAs (Decidable (a.value < b.value))

/-- The greatest long token. -/
def greatest : LongToken := ⟨Int64.maxValue⟩

instance : Token LongToken where
  toIsLinearOrder := isLinearOrder_of_key value (fun _ _ h => congrArg mk h) fun _ _ => Iff.rfl
  toLawfulOrderLT := lawfulOrderLT_of_key value (fun _ _ => Iff.rfl) fun _ _ => Iff.rfl
  decEq := inferInstance
  decLE := inferInstance
  decLT := inferInstance
  origin := ⟨Int64.minValue⟩
  origin_le t := Int64.minValue_le t.value
  successor t := ⟨t.value + 1⟩
  text t := String.ofList (Text.writeSigned t.value.toInt)

/-- A text that is no long token, and why. -/
structure ParseError where
  given : String
  reason : Text.NumeralError
  deriving DecidableEq

/-- The message shown for a refused token. -/
def ParseError.message (e : ParseError) : String :=
  "Invalid token: " ++ Text.quote e.given ++ ": " ++ e.reason.message

/-- Reads a decimal numeral, blanks at its ends aside. -/
def parse (s : String) : Except ParseError LongToken :=
  match Text.readSigned (Text.trim s.toList) with
  | .ok n => .ok ⟨Int64.ofInt n⟩
  | .error reason => .error ⟨s, reason⟩

end LongToken

end ReplicaRing
