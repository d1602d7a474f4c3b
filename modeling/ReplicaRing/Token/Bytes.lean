import ReplicaRing.Order
import ReplicaRing.Text.Hex
import ReplicaRing.Token

/-!
# Byte tokens

The token space of all byte strings in lexicographic order, which keeps keys in their own order.
Its origin is the empty string, it has no greatest token, and the next string after `s` is `s`
with a zero byte behind it.
-/

namespace ReplicaRing

/-- A byte string as a token. -/
structure BytesToken where
  bytes : List UInt8
  deriving DecidableEq

namespace BytesToken

instance : LE BytesToken := ⟨fun a b => a.bytes ≤ b.bytes⟩
instance : LT BytesToken := ⟨fun a b => a.bytes < b.bytes⟩
instance : DecidableLE BytesToken := fun a b => inferInstanceAs (Decidable (a.bytes ≤ b.bytes))
instance : DecidableLT BytesToken := fun a b => inferInstanceAs (Decidable (a.bytes < b.bytes))

/-- The UTF-8 text that the bytes encode, or their hexadecimal digits if they encode none. -/
def text (t : BytesToken) : String :=
  match String.fromUTF8? t.bytes.toByteArray with
  | some s => s
  | none => String.ofList (Text.hexOfBytes t.bytes)

instance : Token BytesToken where
  toIsLinearOrder := isLinearOrder_of_key bytes (fun _ _ h => congrArg mk h) fun _ _ => Iff.rfl
  toLawfulOrderLT := lawfulOrderLT_of_key bytes (fun _ _ => Iff.rfl) fun _ _ => Iff.rfl
  decEq := inferInstance
  decLE := inferInstance
  decLT := inferInstance
  origin := ⟨[]⟩
  origin_le t := List.nil_le t.bytes
  successor t := ⟨t.bytes ++ [0]⟩
  text := text

/-- The token of a text key: its UTF-8 bytes. -/
def ofKey (key : String) : BytesToken := ⟨key.toUTF8.toList⟩

end BytesToken

end ReplicaRing
