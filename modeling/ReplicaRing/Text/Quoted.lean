import ReplicaRing.Text.Hex
import ReplicaRing.Text.Unprintable

/-!
# Quoted text in messages

A message shows a text that it was given between double quotes. The quote and the backslash are
escaped, four control characters have short escapes, and every other character without a glyph
of its own is written as its code point in hexadecimal.
-/

namespace ReplicaRing.Text

/-- One character of a quoted text. -/
def quoteChar (c : Char) : List Char :=
  match c with
  | '\x00' => ['\\', '0']
  | '\t' => ['\\', 't']
  | '\n' => ['\\', 'n']
  | '\r' => ['\\', 'r']
  | '"' => ['\\', '"']
  | '\\' => ['\\', '\\']
  | c =>
    if isUnprintable c then ['\\', 'u', '\x7b'] ++ hexPlain c.toNat ++ ['\x7d'] else [c]

/-- The text between double quotes. -/
def quote (s : String) : String :=
  String.ofList ('"' :: (s.toList.flatMap quoteChar ++ ['"']))

end ReplicaRing.Text
