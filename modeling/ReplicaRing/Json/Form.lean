import ReplicaRing.Arc
import ReplicaRing.Endpoint.Parser
import ReplicaRing.Endpoint.Printer
import ReplicaRing.Json.Parser
import ReplicaRing.Node
import ReplicaRing.ReplicationFactor
import ReplicaRing.Token.Bytes
import ReplicaRing.Token.Long

/-!
# The JSON forms of the library's values

Numbers are integers within their range, byte tokens are arrays of bytes, endpoints and
replication factors are strings. A structure is an object that has each of its fields once, in
any order and with unknown members beside them, or an array of exactly its fields in their order;
it is written as an object.

* `Json.decode?` reads a value from a JSON text and `Json.encode` writes it.
-/

namespace ReplicaRing

/-- A type with a JSON form. -/
class JsonForm (α : Type) where
  ofJson? : Json → Option α
  toJson : α → Json

namespace Json

variable {α : Type}

/-- The value in a JSON text. -/
def decode? [JsonForm α] (s : String) : Option α := (parse? s).bind JsonForm.ofJson?

/-- The JSON text of a value. -/
def encode [JsonForm α] (a : α) : String := (JsonForm.toJson a).text

/-- The member of this name, if there is exactly one. -/
def onlyMember? (members : List (String × Json)) (name : String) : Option Json :=
  match members.filter fun m => m.1 == name with
  | [m] => some m.2
  | _ => none

/-- The members of an object with the texts of their names. -/
def namedMembers? (members : List (List JsonPiece × Json)) : Option (List (String × Json)) :=
  members.mapM fun (key, v) => (stringText? key).map fun name => (name, v)

/-- The fields of a structure, in the order of their names. -/
def fields? (names : List String) : Json → Option (List Json)
  | .object members => do
    let members ← namedMembers? members
    names.mapM (onlyMember? members)
  | .array items => if items.length = names.length then some items else none
  | _ => none

/-- An integer with `low ≤ n < high`. -/
def integerIn? (low high : Int) : Json → Option Int
  | .integer n => if low ≤ n ∧ n < high then some n else none
  | _ => none

/-- The text of a string. -/
def string? : Json → Option String
  | .string pieces => stringText? pieces
  | _ => none

end Json

open Json

instance : JsonForm LongToken where
  ofJson? v := (v.integerIn? (-0x8000000000000000) 0x8000000000000000).map fun n => ⟨.ofInt n⟩
  toJson t := .integer t.value.toInt

instance : JsonForm BytesToken where
  ofJson?
    | .array items =>
      (items.mapM (integerIn? 0 256)).map fun bytes => ⟨bytes.map fun n => n.toNat.toUInt8⟩
    | _ => none
  toJson t := .array (t.bytes.map fun b => .integer b.toNat)

instance : JsonForm NodeId where
  ofJson? v := (v.integerIn? 0 0x100000000000000000000000000000000).map fun n => ⟨.ofInt 128 n⟩
  toJson id := .integer id.number.toNat

instance : JsonForm Endpoint where
  ofJson? v := v.string?.bind Endpoint.parse?
  toJson e := ofString e.text

instance : JsonForm Location where
  ofJson? v := do
    match ← v.fields? ["datacenter", "rack"] with
    | [dc, rack] => some ⟨← dc.string?, ← rack.string?⟩
    | _ => none
  toJson l := ofMembers [("datacenter", ofString l.datacenter), ("rack", ofString l.rack)]

instance : JsonForm Node where
  ofJson? v := do
    match ← v.fields? ["id", "endpoint", "location"] with
    | [id, endpoint, location] =>
      some ⟨← JsonForm.ofJson? id, ← JsonForm.ofJson? endpoint, ← JsonForm.ofJson? location⟩
    | _ => none
  toJson n :=
    ofMembers [("id", JsonForm.toJson n.id), ("endpoint", JsonForm.toJson n.endpoint),
      ("location", JsonForm.toJson n.location)]

instance {T : Type} [JsonForm T] : JsonForm (Arc T) where
  ofJson? v := do
    match ← v.fields? ["left", "right"] with
    | [left, right] => some ⟨← JsonForm.ofJson? left, ← JsonForm.ofJson? right⟩
    | _ => none
  toJson a := ofMembers [("left", JsonForm.toJson a.left), ("right", JsonForm.toJson a.right)]

instance : JsonForm ReplicationFactor where
  ofJson? v := v.string?.bind fun s => (ReplicationFactor.parse s).toOption
  toJson f := ofString f.text

end ReplicaRing
