import ReplicaRing.Text.Hex
import ReplicaRing.Text.Numeral

/-!
# JSON values

A JSON text taken apart. Strings keep their `\u` escapes as UTF-16 units, since only a reader
that wants the text of a string minds an escape that spells no character; integers are values,
and any other number keeps its spelling.

* `textOfPieces?` is the text of a string, if its units pair up.
* `Json.text` writes a value without blanks.
-/

namespace ReplicaRing

/-- One item of a JSON string: a character, or a UTF-16 unit that was written as an escape. -/
inductive JsonPiece
  | char (c : Char)
  | unit (u : Nat)
  deriving DecidableEq

/-- A JSON value. -/
inductive Json
  | null
  | bool (b : Bool)
  | integer (n : Int)
  /-- A number with a fraction or an exponent, or minus zero, as it is spelled. -/
  | decimal (spelling : List Char)
  | string (pieces : List JsonPiece)
  | array (items : List Json)
  | object (members : List (List JsonPiece × Json))

namespace Json

/-! ## Strings -/

/-- The text that the pieces spell; a high surrogate is pending until the low one follows. -/
def textOfPieces? (pending : Option Nat) : List JsonPiece → Option (List Char)
  | [] => if pending.isNone then some [] else none
  | .char c :: rest => if pending.isNone then (textOfPieces? none rest).map (c :: ·) else none
  | .unit u :: rest =>
    match pending with
    | none =>
      if 0xD800 ≤ u ∧ u < 0xDC00 then textOfPieces? (some u) rest
      else if 0xDC00 ≤ u ∧ u < 0xE000 then none
      else (textOfPieces? none rest).map (Char.ofNat u :: ·)
    | some high =>
      if 0xDC00 ≤ u ∧ u < 0xE000 then
        let c := Char.ofNat (0x10000 + (high - 0xD800) * 0x400 + (u - 0xDC00))
        (textOfPieces? none rest).map (c :: ·)
      else none

/-- The text of a string. -/
def stringText? (pieces : List JsonPiece) : Option String :=
  (textOfPieces? none pieces).map String.ofList

/-- The string with this text. -/
def ofString (s : String) : Json := .string (s.toList.map .char)

/-- The object with these members. -/
def ofMembers (members : List (String × Json)) : Json :=
  .object (members.map fun (key, value) => (key.toList.map .char, value))

/-! ## Writing -/

/-- One character in a string: the quote, the backslash and control characters are escaped. -/
def writeChar (c : Char) : List Char :=
  match c with
  | '"' => ['\\', '"']
  | '\\' => ['\\', '\\']
  | '\x08' => ['\\', 'b']
  | '\x0c' => ['\\', 'f']
  | '\n' => ['\\', 'n']
  | '\r' => ['\\', 'r']
  | '\t' => ['\\', 't']
  | c => if c.toNat < 0x20 then '\\' :: 'u' :: Text.hexPadded 4 c.toNat else [c]

def writePiece : JsonPiece → List Char
  | .char c => writeChar c
  | .unit u => '\\' :: 'u' :: Text.hexPadded 4 u

/-- A string between its quotes. -/
def writeString (pieces : List JsonPiece) : List Char :=
  '"' :: (pieces.flatMap writePiece ++ ['"'])

mutual

/-- A value without blanks. -/
def write : Json → List Char
  | .null => "null".toList
  | .bool true => "true".toList
  | .bool false => "false".toList
  | .integer n => Text.writeSigned n
  | .decimal spelling => spelling
  | .string pieces => writeString pieces
  | .array items => '[' :: (writeItems items ++ [']'])
  | .object members => '\x7b' :: (writeMembers members ++ ['\x7d'])

/-- Items with commas between them. -/
def writeItems : List Json → List Char
  | [] => []
  | [v] => write v
  | v :: w :: rest => write v ++ ',' :: writeItems (w :: rest)

/-- Members with commas between them. -/
def writeMembers : List (List JsonPiece × Json) → List Char
  | [] => []
  | [(key, v)] => writeString key ++ ':' :: write v
  | (key, v) :: m :: rest => writeString key ++ ':' :: (write v ++ ',' :: writeMembers (m :: rest))

end

/-- The text of a value. -/
def text (v : Json) : String := String.ofList (write v)

end Json

end ReplicaRing
